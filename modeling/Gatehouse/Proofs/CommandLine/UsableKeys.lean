import Gatehouse.Proofs.CommandLine.SentReset
import Gatehouse.Proofs.Config.Valid

/-!
# Keys that can be shown

Any text that is not empty may be the key of the admin interface. The admin client sends the encoding
of the key if that can stand in a header, which keeps out control characters and nothing else. The
gateway reads a header as text only if all of it is visible ASCII. A key with a character beyond ASCII
is accepted and sent, and is never read: nobody can show it.

* `CanStand`, `AdminClient.isHeaderValue_authorization_iff` : which keys can be sent;
* `isVisible_iff` : which of their characters are read;
* `Gateway.Carries` : a request with the header that the admin client makes of the key;
* `KeyUseLaw`, `keyUseLaw` : who is let through with which key;
* `not_let_through_accented` : a key that is accepted and sent, and does not open the door.
-/

namespace Gatehouse

open Gatehouse.Http Gatehouse.Text
open Gatehouse.CommandLine (IsVisible)
open Gatehouse.CommandLine.AdminClient (authorization)

/-! ## What can stand in a header -/

namespace CommandLine

/-- Characters whose encoding can stand in a header. -/
def CanStand (c : Char) : Prop := c = '\t' ∨ ' ' ≤ c ∧ c ≠ '\x7f'

instance : DecidablePred CanStand := fun c =>
  inferInstanceAs (Decidable (c = '\t' ∨ ' ' ≤ c ∧ c ≠ '\x7f'))

/-- Beyond ASCII every byte of an encoding has its highest bit set. -/
theorem le_of_mem_utf8EncodeChar {c : Char} (hc : 128 ≤ c.toNat) {b : UInt8}
    (hb : b ∈ String.utf8EncodeChar c) : 128 ≤ b.toNat := by
  have htail (n : Nat) : 128 ≤ (UInt8.ofNat (n % 64 + 128)).toNat := by
    rw [UInt8.toNat_ofNat']
    omega
  unfold String.utf8EncodeChar at hb
  dsimp only at hb
  replace hc : 128 ≤ c.val.toNat := hc
  generalize c.val.toNat = n at hb hc
  split_ifs at hb with hone htwo hthree
  · omega
  · rcases List.mem_cons.mp hb with rfl | hb
    · rw [UInt8.toNat_ofNat']
      omega
    · obtain rfl := List.mem_singleton.mp hb
      exact htail n
  · rcases List.mem_cons.mp hb with rfl | hb
    · rw [UInt8.toNat_ofNat']
      omega
    · rcases List.mem_pair.mp hb with rfl | rfl
      · exact htail (n / 64)
      · exact htail n
  · rcases List.mem_cons.mp hb with rfl | hb
    · rw [UInt8.toNat_ofNat']
      omega
    · rcases List.mem_cons.mp hb with rfl | hb
      · exact htail (n / 4096)
      · rcases List.mem_pair.mp hb with rfl | rfl
        · exact htail (n / 64)
        · exact htail n

theorem all_isValueByte_iff (c : Char) :
    (String.utf8EncodeChar c).all isValueByte = true ↔ CanStand c := by
  rcases Nat.lt_or_ge c.toNat 128 with hascii | hbeyond
  · have hall : ∀ n < 128, ((String.utf8EncodeChar (Char.ofNat n)).all isValueByte = true ↔
        CanStand (Char.ofNat n)) := by decide
    exact Url.of_ascii (p := fun c => (String.utf8EncodeChar c).all isValueByte = true ↔ CanStand c)
      hall hascii
  · refine iff_of_true (List.all_eq_true.mpr fun b hb => ?_) (.inr ⟨?_, ?_⟩)
    · have hhigh := le_of_mem_utf8EncodeChar hbeyond hb
      have hlow : (32 : UInt8) ≤ b := UInt8.le_iff_toNat_le.mpr (Nat.le_trans (by decide) hhigh)
      have hne : b ≠ 127 := by
        rintro rfl
        exact absurd hhigh (by decide)
      unfold isValueByte
      simp [hlow, hne]
    · exact UInt32.le_iff_toNat_le.mpr (Nat.le_trans (by decide) hbeyond)
    · rintro rfl
      exact absurd hbeyond (by decide)

/-- Of the characters that can stand in a header those of ASCII are read, and no others. -/
theorem isVisible_iff (c : Char) : IsVisible c ↔ CanStand c ∧ c.toNat < 128 := by
  have hall : ∀ n < 128, (IsVisible (Char.ofNat n) ↔ CanStand (Char.ofNat n)) := by decide
  have hsame {c : Char} (hascii : c.toNat < 128) : IsVisible c ↔ CanStand c :=
    Url.of_ascii (p := fun c => IsVisible c ↔ CanStand c) hall hascii
  constructor
  · intro h
    exact ⟨(hsame h.toNat_lt).mp h, h.toNat_lt⟩
  · rintro ⟨h, hascii⟩
    exact (hsame hascii).mpr h

theorem AdminClient.isHeaderValue_authorization_iff (key : String) :
    isHeaderValue (authorization key) = true ↔ ∀ c ∈ key.toList, CanStand c := by
  have hscheme : ∀ c ∈ Admin.scheme, CanStand c := List.all_iff_forall_prop.mp (by decide)
  have hall : isHeaderValue (authorization key) = true ↔
      ∀ c ∈ Admin.scheme ++ key.toList, CanStand c := by
    rw [authorization_eq]
    unfold isHeaderValue utf8
    rw [List.all_flatMap, List.all_eq_true]
    exact forall₂_congr fun c _ => all_isValueByte_iff c
  rw [hall, List.forall_mem_append]
  exact and_iff_right hscheme

end CommandLine

open CommandLine

/-! ## Who is let through -/

namespace Gateway

variable {α : Type}

/-- A request has the header that the admin client makes of the key of the gateway. -/
def Carries (g : Gateway α) (r : Request) : Prop :=
  Headers.first? Admin.authorizationHeader r.headers = some (authorization g.config.admin.apiKey)

/-- Every character of the key is one of ASCII. -/
def HasAsciiKey (g : Gateway α) : Prop := ∀ c ∈ g.config.admin.apiKey.toList, c.toNat < 128

variable {g : Gateway α}

theorem isVisible_of_keyShown {r : Request} (h : g.KeyShown r) :
    ∀ c ∈ g.config.admin.apiKey.toList, IsVisible c := by
  obtain ⟨-, value, -, hread⟩ := h
  obtain ⟨-, hvisible⟩ := visibleText?_eq_some_iff.mp hread
  exact fun c hc => hvisible c (List.mem_append_right _ hc)

theorem keyShown_iff_of_carries (hne : g.config.admin.apiKey.toList ≠ []) {r : Request}
    (h : g.Carries r) : g.KeyShown r ↔ ∀ c ∈ g.config.admin.apiKey.toList, IsVisible c := by
  refine ⟨isVisible_of_keyShown, fun hvisible => ⟨hne, _, h, ?_⟩⟩
  have hscheme : ∀ c ∈ Admin.scheme, IsVisible c := List.all_iff_forall_prop.mp (by decide)
  rw [visibleText?_eq_some_iff, AdminClient.authorization_eq]
  exact ⟨rfl, List.forall_mem_append.mpr ⟨hscheme, hvisible⟩⟩

end Gateway

/-- What the key of a gateway is good for. -/
structure KeyUseLaw {α : Type} [TokenArithmetic α] (g : Gateway α) : Prop where
  /-- The admin client has a header for every key without control characters other than tabs. -/
  sent_iff : isHeaderValue (authorization g.config.admin.apiKey) = true ↔
    ∀ c ∈ g.config.admin.apiKey.toList, CanStand c
  /-- A request with this header shows the key exactly when the key is ASCII, -/
  shown_iff : isHeaderValue (authorization g.config.admin.apiKey) = true →
    ∀ r, g.Carries r → (g.KeyShown r ↔ g.HasAsciiKey)
  /-- and then it is let through to the endpoint that it asks for, -/
  letThrough : isHeaderValue (authorization g.config.admin.apiKey) = true → g.HasAsciiKey →
    ∀ now r, g.Carries r →
      g.administer now (g.resource r) r = g.handle now (g.resource r) r.method ∧
      (g.administer now (g.resource r) r).1.status ≠ .unauthorized
  /-- whatever else is done for a request before and after. -/
  answered : isHeaderValue (authorization g.config.admin.apiKey) = true → g.HasAsciiKey →
    ∀ now id fresh r, g.Carries r → (g.resource r).isAdmin = true →
      g.arrive now id fresh r =
        (.answered (g.finish fresh r ⟨(g.handle now (g.resource r) r.method).1, none⟩),
          (g.handle now (g.resource r) r.method).2)
  /-- With any other key nobody is let through, whatever they show, and nothing is changed. -/
  lockedOut : ¬ g.HasAsciiKey → ∀ now r, (g.resource r).isAdmin = true →
    (g.administer now (g.resource r) r).1 = Reply.bare .unauthorized ∧
      (g.administer now (g.resource r) r).2.1 = g

/-- **A key that is accepted and sent is of use exactly when it is ASCII.** With a valid configuration
and an admin interface, a request with the header that the admin client makes of the key is let
through if the key is ASCII, and else nobody is. -/
theorem keyUseLaw [Idna] {α : Type} [TokenArithmetic α] (g : Gateway α)
    (hvalid : g.config.isValid = true)
    (henabled : g.config.admin.enabled = true) : KeyUseLaw g := by
  have hsent := AdminClient.isHeaderValue_authorization_iff g.config.admin.apiKey
  have hne := Config.apiKey_ne_nil hvalid henabled
  have hshown : isHeaderValue (authorization g.config.admin.apiKey) = true →
      ∀ r, g.Carries r → (g.KeyShown r ↔ g.HasAsciiKey) := by
    intro hheader r hcarries
    rw [Gateway.keyShown_iff_of_carries hne hcarries]
    refine forall₂_congr fun c hc => ?_
    rw [isVisible_iff, and_iff_right (hsent.mp hheader c hc)]
  refine {
    sent_iff := hsent
    shown_iff := hshown
    letThrough := fun hheader hascii now r hcarries => ?_
    answered := fun hheader hascii now id fresh r hcarries hadmin => ?_
    lockedOut := fun hnot now r _ => ?_ }
  · rw [g.administer_of_shown now _ ((hshown hheader r hcarries).mpr hascii)]
    exact ⟨rfl, g.handle_status_ne now _ r.method⟩
  · have htime : g.HasTime now :=
      Gateway.hasTime_of_pos (Nat.pos_of_mul_pos_right (Config.timeouts_pos hvalid).2.2) now
    exact Gateway.arrive_of_shown id fresh htime hadmin ((hshown hheader r hcarries).mpr hascii)
  · have hkey : ¬ g.KeyShown r := fun h =>
      hnot fun c hc => (Gateway.isVisible_of_keyShown h c hc).toNat_lt
    obtain ⟨events, -, heq⟩ := g.administer_of_not_shown now (g.resource r) hkey
    rw [heq]
    exact ⟨rfl, rfl⟩

/-! A gateway with nothing but an admin interface, and those who ask it how it is. -/

def Config.lockedBy (key : String) : Config := { (default : Config) with admin := ⟨true, key⟩ }

def Gateway.lockedBy [Idna] (key : String) : Gateway Rat :=
    (Gateway.ofConfig (Config.lockedBy key) 0).1

def statusRequest (key : String) : Request :=
  ⟨.get, ⟨none, none, Resource.statusPath, none⟩,
    [⟨Admin.authorizationHeader, authorization key⟩], [], none, none⟩

theorem keyUseLaw_tilde :
    (Gateway.lockedBy "~ let me in ~").config.isValid = true ∧
      (Gateway.lockedBy "~ let me in ~").config.admin.enabled = true ∧
      KeyUseLaw (Gateway.lockedBy "~ let me in ~") ∧
      ((Gateway.lockedBy "~ let me in ~").administer 0 .status (statusRequest "~ let me in ~")).1.status =
        .ok := by
  have hvalid : (Gateway.lockedBy "~ let me in ~").config.isValid = true := by decide +kernel
  exact ⟨hvalid, rfl, keyUseLaw (Gateway.lockedBy "~ let me in ~") hvalid rfl, by decide +kernel⟩

/-- A key with an accent is accepted, the admin client sends it, and it opens nothing. -/
theorem not_let_through_accented :
    (Gateway.lockedBy "clé").config.isValid = true ∧
      (Gateway.lockedBy "clé").config.admin.enabled = true ∧
      isHeaderValue (authorization "clé") = true ∧
      (AdminClient.mk "http://localhost:8080" "clé" .status).request.isSome = true ∧
      (Gateway.lockedBy "clé").Carries (statusRequest "clé") ∧
      (Gateway.lockedBy "clé").resource (statusRequest "clé") = .status ∧
      ((Gateway.lockedBy "clé").administer 0 .status (statusRequest "clé")).1.status =
        .unauthorized := by
  have hcarries : (Gateway.lockedBy "clé").Carries (statusRequest "clé") := by
    unfold Gateway.Carries
    decide +kernel
  exact ⟨by decide +kernel, rfl, by decide +kernel, by decide +kernel, hcarries, by decide +kernel,
    by decide +kernel⟩

end Gatehouse
