import Gatehouse.CommandLine.AdminClient
import Gatehouse.Proofs.Gateway.ResetPath
import Mathlib.Data.List.DropRight

/-!
# The reset that the admin client sends

The admin client pastes the name of a service into the path behind the address of the gateway, and
sends the URL that comes of it with the key in a header. With the right address this is always a
URL; it is sent unless it is too long, and comes in at the gateway with the path that it has. The key
comes through if it is visible text without blanks at the end.

* `parse_text_pasted` : the text of a pasted URL as a target;
* `AdminClient.read_reset_iff`, `AdminClient.read_reset_dashes` : a reset on the command line;
* `IsAddress`, `IsKey` : an address that is right, and a key that can come through;
* `AdminRequest.Arrives` : a request as it comes in;
* `AdminRequest.shows_iff_of_arrives` : whether it shows the key;
* `sent_reset` : the request for the reset of a service by its name.
-/

namespace Gatehouse

open Gatehouse.Http Gatehouse.Text Gatehouse.Url

/-! ## The text of a pasted URL -/

namespace Url

theorem all_percentEncode {set p : Char → Bool} (hset : ∀ c, set c = false → inControlSet c = false)
    (hescape : ∀ c ∈ escapeChars, p c = true)
    (hplain : ∀ n < 128, set (Char.ofNat n) = false → p (Char.ofNat n) = true) (s : List Char) :
    (percentEncode set s).all p = true := by
  rw [List.all_eq_true]
  intro c hc
  rcases mem_percentEncode hc with h | ⟨-, h⟩
  · exact hescape c h
  · have hcontrol := hset c h
    unfold inControlSet at hcontrol
    rw [decide_eq_false_iff_not, not_or, Nat.not_lt, Nat.not_lt] at hcontrol
    exact of_ascii (p := fun c => set c = false → p c = true) hplain (by omega) h

theorem isPathChar_percentEncode (s : List Char) :
    (percentEncode inPathSet s).all Uri.isPathChar = true := by
  refine all_percentEncode (fun c hc => ?_) (List.all_eq_true.mp (by decide)) (by decide) s
  unfold inPathSet inFragmentSet at hc
  simp only [Bool.or_eq_false_iff] at hc
  exact hc.1.1.1.1.1.1.1.1.1

theorem isQueryChar_percentEncode (s : List Char) :
    (percentEncode inSpecialQuerySet s).all Uri.isQueryChar = true := by
  refine all_percentEncode (fun c hc => ?_) (List.all_eq_true.mp (by decide)) (by decide) s
  unfold inSpecialQuerySet inQuerySet at hc
  simp only [Bool.or_eq_false_iff] at hc
  exact hc.1.1.1.1.1.1

theorem isPathChar_rootedPath {scheme : List Char}
    (hweb : scheme = "http".toList ∨ scheme = "https".toList) (s : List Char) :
    (rootedPath scheme s).all Uri.isPathChar = true := by
  rw [rootedPath_web hweb, List.all_eq_true]
  intro c hc
  obtain ⟨segment, hsegment, hc⟩ := List.mem_flatMap.mp hc
  rcases List.mem_cons.mp hc with rfl | hc
  · decide
  rcases mem_resolveDots hsegment with rfl | h | h
  · cases hc
  · cases h
  · obtain ⟨p, -, -, rfl⟩ := of_mem_encodedSegments h
    exact List.all_eq_true.mp (isPathChar_percentEncode p) c hc

theorem isQueryChar_splitTail (s : List Char) :
    ∀ q ∈ (splitTail true s).2.1, q.all Uri.isQueryChar = true := by
  intro q hq
  unfold splitTail at hq
  dsimp only at hq
  split at hq
  · obtain rfl := Option.some.inj hq
    exact isQueryChar_percentEncode _
  · cases hq

theorem Web.head?_tail {u : Url} {site : List Char} (h : Web u site) :
    ∀ c ∈ u.tail.head?, c ∈ authorityEnds := by
  obtain ⟨path, hpath⟩ := List.head?_eq_some_iff.mp h.head?_path
  intro c hc
  rw [tail, hpath] at hc
  obtain rfl := Option.some.inj hc
  decide

/-- The path and the query of a URL are a target of their own. -/
theorem Web.parse_target {u : Url} {site : List Char} (h : Web u site)
    (hpath : u.path.all Uri.isPathChar = true)
    (hquery : ∀ q ∈ u.query, q.all Uri.isQueryChar = true)
    (hshort : ¬ Uri.maxLength < byteLength u.text) :
    Uri.parse (u.path ++ (u.query.map ('?' :: ·)).getD []) = .ok ⟨none, none, u.path, u.query⟩ := by
  have hlength : ¬ Uri.maxLength < byteLength (u.path ++ (u.query.map ('?' :: ·)).getD []) := by
    rw [h.text_eq, byteLength_append, byteLength_append site, tail,
      byteLength_append (u.path ++ _)] at hshort
    omega
  have hparts : Uri.parsePath (u.path ++ (u.query.map ('?' :: ·)).getD [] ++
      ((none : Option (List Char)).map ('#' :: ·)).getD []) = .ok (u.path, u.query) :=
    Uri.parsePath_written h.disjoint_path hpath hquery
  rw [Option.map_none, Option.getD_none, List.append_nil] at hparts
  obtain ⟨path, hslash⟩ := List.head?_eq_some_iff.mp h.head?_path
  unfold Uri.parse
  rw [if_neg hlength]
  rw [hslash] at hparts ⊢
  rw [List.cons_append] at hparts ⊢
  show (Uri.parsePath _).map _ = _
  rw [hparts]
  rfl

/-- The authority of a URL without its user name and password, as text. -/
def siteText (a : Authority) : List Char := (Authority.mk [] [] a.host a.port).text

end Url

namespace CommandLine

open AdminClient

section Pasted
variable [Idna] {front scheme : List Char} {a : Authority} (hf : Front front scheme a)
    (s : List Char)
include hf

theorem web_pasted : Web (withoutUser (pasted scheme a s)) (siteText a) := by
  obtain ⟨host, hhost, htext⟩ := hf.host
  have hnil : ([] : List Char).Disjoint authorityEnds := List.disjoint_nil_left _
  have hpath := rootedPath_spec (ne_file_web hf.web) (splitTail true s).1
  refine ⟨hf.web, rfl, ?_, hpath.1, hpath.2⟩
  unfold siteText
  rw [hhost]
  exact isHostText_of_parts hnil hnil htext a.port

/-- The parts of a pasted URL are read back from its text, unless it is too long. -/
theorem parse_text_pasted (hsite : Uri.IsAuthority (siteText a)) :
    Uri.parse (withoutUser (pasted scheme a s)).text =
      if Uri.maxLength < byteLength (withoutUser (pasted scheme a s)).text then .error .tooLong
      else .ok ⟨some scheme, some (siteText a), (pasted scheme a s).path,
        (pasted scheme a s).query⟩ := by
  have hweb := web_pasted hf s
  have hparts : Uri.parsePath (withoutUser (pasted scheme a s)).tail =
      .ok ((pasted scheme a s).path, (pasted scheme a s).query) :=
    Uri.parsePath_written hweb.disjoint_path (isPathChar_rootedPath hf.web _)
      (isQueryChar_splitTail s)
  rw [hweb.text_eq]
  exact Uri.parse_written hf.web hweb.isHostText hsite hweb.head?_tail hparts

/-- A pasted URL is sent without its user name, password and fragment, unless it is too long. -/
theorem destination?_pasted (hsite : Uri.IsAuthority (siteText a)) :
    destination? (pasted scheme a s) =
      if Uri.maxLength < byteLength (withoutUser (pasted scheme a s)).text then none
      else some { withoutUser (pasted scheme a s) with fragment := none } := by
  have hhost : (withoutUser (pasted scheme a s)).host?.isNone = false := by
    obtain ⟨host, hhost, -⟩ := hf.host
    simp [host?, withoutUser, pasted, hhost]
  have hscheme : ¬ ((withoutUser (pasted scheme a s)).scheme ≠ "http".toList ∧
      (withoutUser (pasted scheme a s)).scheme ≠ "https".toList) := by
    rintro ⟨hhttp, hhttps⟩
    exact hf.web.elim hhttp hhttps
  unfold destination?
  simp only [if_neg hscheme, hhost, Bool.false_eq_true, if_false, parse_text_pasted hf s hsite]
  split_ifs <;> rfl

end Pasted

/-! ## The arguments -/

namespace AdminClient

theorem read_value {flags : List Flag} {values : Values} {arg : String} {f : Flag}
    {value : List Char} (hlike : isFlagLike arg.toList = true) (hdashes : arg.toList ≠ "--".toList)
    (hhelp : ¬ (arg.toList = "-h".toList ∨ arg.toList = "--help".toList))
    (hmatched : matched? flags arg.toList = some (f, some value))
    (hnew : (values.lookup f.name).isSome = false) (args : List String) :
    CommandLine.read flags values (arg :: args) =
      CommandLine.read flags ((f.name, .ofList value) :: values) args := by
  rw [CommandLine.read]
  simp only [if_neg hdashes, hlike, if_neg hhelp, hmatched, hnew, Bool.not_true, Bool.false_eq_true,
    if_false]

theorem read_plain {arg : String} (h : isFlagLike arg.toList = false) (flags : List Flag)
    (values : Values) (args : List String) :
    CommandLine.read flags values (arg :: args) = .understood (values, arg :: args) := by
  have hdashes : arg.toList ≠ "--".toList := by
    intro heq
    rw [heq] at h
    exact absurd h (by decide)
  unfold CommandLine.read
  rw [if_neg hdashes, h]
  rfl

theorem read_dashes (flags : List Flag) (values : Values) (args : List String) :
    CommandLine.read flags values ("--" :: args) = .understood (values, args) := by
  unfold CommandLine.read
  exact if_pos rfl

theorem read_flags (text key : String) (args : List String) :
    CommandLine.read flags [] (("--url=" ++ text) :: ("--key=" ++ key) :: args) =
      CommandLine.read flags [("key", key), ("url", text)] args := by
  have hurl : matched? flags ("--url=" ++ text).toList =
      some (⟨"url", 'u'⟩, some text.toList) := by
    simp [matched?, flags, Flag.matched?, afterPrefix?]
  have hkey : matched? flags ("--key=" ++ key).toList =
      some (⟨"key", 'k'⟩, some key.toList) := by
    simp [matched?, flags, Flag.matched?, afterPrefix?]
  rw [read_value (by simp [isFlagLike]) (by simp) (by simp) hurl rfl,
    read_value (by simp [isFlagLike]) (by simp) (by simp) hkey rfl, String.ofList_toList,
    String.ofList_toList]

theorem read_command (text key : String) {command : String} {args : List String}
    (h : isFlagLike command.toList = false) (environment : Option String) :
    AdminClient.read (("--url=" ++ text) :: ("--key=" ++ key) :: command :: args) environment =
      (readCommand (command :: args)).andThen fun c => .understood ⟨text, key, c⟩ := by
  unfold AdminClient.read
  rw [read_flags, read_plain h]
  rfl

theorem readCommand_reset {args : List String} {service : String}
    (h : CommandLine.read [] [] args = .understood ([], [service])) :
    readCommand ("reset" :: args) = .understood (.reset service) := by
  show (operands 1 args).andThen _ = _
  unfold operands
  rw [h]
  rfl

theorem read_reset_iff (text key name : String) (environment : Option String) :
    AdminClient.read ["--url=" ++ text, "--key=" ++ key, "reset", name] environment =
      .understood ⟨text, key, .reset name⟩ ↔ isFlagLike name.toList = false := by
  rw [read_command text key (by decide)]
  cases hlike : isFlagLike name.toList with
  | false =>
    rw [readCommand_reset (read_plain hlike [] [] [])]
    exact iff_of_true rfl rfl
  | true =>
    refine iff_of_false ?_ Bool.true_eq_false.mp
    show ((operands 1 [name]).andThen _).andThen _ ≠ _
    unfold operands
    unfold CommandLine.read
    simp only [hlike, Bool.not_true, Bool.false_eq_true, if_false]
    split_ifs <;>
      · intro h
        cases h

/-- Behind two dashes any name is understood. -/
theorem read_reset_dashes (text key name : String) (environment : Option String) :
    AdminClient.read ["--url=" ++ text, "--key=" ++ key, "reset", "--", name] environment =
      .understood ⟨text, key, .reset name⟩ := by
  rw [read_command text key (by decide), readCommand_reset (read_dashes [] [] [name])]
  rfl

end AdminClient

/-! ## Right addresses and right keys -/

/-- An address behind which the admin interface is found: the path of its state comes out as it is,
in a URL that a request can be sent to. -/
def IsAddress [Idna] (text : String) : Prop :=
  ∃ u, Url.parse (dropEnd '/' text.toList ++ Resource.statusPath) = .ok u ∧
    u.path = Resource.statusPath ∧ u.query = none ∧ u.fragment = none ∧
    (destination? u).isSome = true

/-- Visible characters and blanks. -/
def IsVisible (c : Char) : Prop := c = '\t' ∨ ' ' ≤ c ∧ c ≤ '~'

instance : DecidablePred IsVisible := fun c =>
  inferInstanceAs (Decidable (c = '\t' ∨ ' ' ≤ c ∧ c ≤ '~'))

/-- A key that comes through a header as it is: blanks at the end would not. -/
structure IsKey (key : String) : Prop where
  visible : ∀ c ∈ key.toList, IsVisible c
  last : key.toList.getLast? ≠ some ' ' ∧ key.toList.getLast? ≠ some '\t'

theorem of_destination? {u : Url} (h : (destination? u).isSome = true) :
    (u.scheme = "http".toList ∨ u.scheme = "https".toList) ∧
      ∃ uri, Uri.parse (withoutUser u).text = .ok uri := by
  unfold destination? at h
  dsimp only at h
  split_ifs at h with hscheme hhost
  · cases h
  · cases h
  · refine ⟨by by_contra hno; exact hscheme (not_or.mp hno), ?_⟩
    cases hparse : Uri.parse (withoutUser u).text with
    | error e =>
      rw [hparse] at h
      cases h
    | ok uri => exact ⟨uri, rfl⟩

theorem isProbe_status [Idna] {scheme : List Char}
    (hweb : scheme = "http".toList ∨ scheme = "https".toList) :
    IsProbe scheme "admin/status".toList := by
  have hlast : "admin/status".toList.getLast? = some 's' := by decide
  refine ⟨fun c hc => ?_, by decide, by decide, by decide, fun a rest h => ?_⟩
  · obtain rfl := Option.some.inj (hlast.symm.trans hc)
    decide
  -- read as an authority the path is a host and what is left of the path
  have hread : readAuthority scheme "admin/status".toList =
      .ok (⟨[], [], some (.name "admin".toList), none⟩, "/status".toList) := by
    rcases hweb with rfl | rfl <;> rfl
  rw [hread] at h
  cases h
  rcases hweb with rfl | rfl <;> decide +kernel

/-- Behind a right address any path has the same site in front of it. -/
theorem front_of_isAddress [Idna] {text : String} (h : IsAddress text) :
    ∃ scheme a, Front (dropEnd '/' text.toList) scheme a ∧ Uri.IsAuthority (siteText a) := by
  obtain ⟨u, hparse, hpath, hquery, hfragment, hsent⟩ := h
  obtain ⟨hweb, uri, huri⟩ := of_destination? hsent
  have hstatus : Resource.statusPath = '/' :: "admin/status".toList := by decide
  have hrooted : rootedPath u.scheme "admin/status".toList = Resource.statusPath := by
    rcases hweb with h | h <;> rw [h] <;> decide
  have hprobe := isProbe_status hweb
  rw [hstatus] at hparse
  obtain ⟨a, -, hf⟩ :=
    front_of_parse hprobe hweb hparse (hpath.trans hrooted.symm) hquery hfragment
  have hu := hf.parse_eq "admin/status".toList hprobe.last
  rw [hparse] at hu
  refine ⟨u.scheme, a, hf, ?_⟩
  have hwritten := web_pasted hf ("admin/status".toList.filter fun c => !isLineBlank c)
  rw [← Except.ok.inj hu] at hwritten
  rw [hwritten.text_eq] at huri
  exact Uri.isAuthority_of_parse hweb hwritten.isHostText hwritten.head?_tail huri

/-! ## Keys -/

/-- A blank, which is no part of a header value when it stands at the end. -/
def isBlankByte (b : UInt8) : Bool := b = 32 || b = 9

/-- The visible bytes are the visible characters, one for one. -/
theorem visible_ascii : ∀ n < 128, (isVisibleByte (.ofNat n) = true ↔ IsVisible (Char.ofNat n)) ∧
    String.utf8EncodeChar (Char.ofNat n) = [.ofNat n] ∧
    Char.ofNat (UInt8.ofNat n).toNat = Char.ofNat n ∧
    (isBlankByte (.ofNat n) = true ↔ Char.ofNat n = ' ' ∨ Char.ofNat n = '\t') := by decide

theorem IsVisible.toNat_lt {c : Char} (h : IsVisible c) : c.toNat < 128 := by
  rcases h with rfl | ⟨-, hc⟩
  · decide
  · exact Nat.lt_of_le_of_lt (UInt32.le_iff_toNat_le.mp hc) (by decide)

theorem IsVisible.exists_byte {c : Char} (h : IsVisible c) :
    ∃ b, String.utf8EncodeChar c = [b] ∧ isVisibleByte b = true ∧ Char.ofNat b.toNat = c ∧
      (isBlankByte b = true ↔ c = ' ' ∨ c = '\t') := by
  obtain ⟨hvisible, hencode, hback, hblank⟩ := visible_ascii c.toNat h.toNat_lt
  rw [Char.ofNat_toNat] at hvisible hencode hback hblank
  exact ⟨_, hencode, hvisible.mpr h, hback, hblank⟩

theorem exists_of_isVisibleByte {b : UInt8} (h : isVisibleByte b = true) :
    IsVisible (Char.ofNat b.toNat) ∧ String.utf8EncodeChar (Char.ofNat b.toNat) = [b] := by
  have hascii : b.toNat < 128 := by
    unfold isVisibleByte at h
    simp only [Bool.or_eq_true, Bool.and_eq_true, decide_eq_true_iff] at h
    rcases h with ⟨-, hlt⟩ | rfl
    · exact Nat.lt_trans (UInt8.lt_iff_toNat_lt.mp hlt) (by decide)
    · decide
  obtain ⟨hvisible, hencode, -, -⟩ := visible_ascii b.toNat hascii
  rw [UInt8.ofNat_toNat] at hvisible hencode
  exact ⟨hvisible.mp h, hencode⟩

theorem utf8_of_visible {bs : Bytes} (h : bs.all isVisibleByte = true) :
    utf8 (bs.map fun b => Char.ofNat b.toNat) = bs ∧
      ∀ c ∈ bs.map (fun b => Char.ofNat b.toNat), IsVisible c := by
  induction bs with
  | nil => exact ⟨rfl, nofun⟩
  | cons b bs ih =>
    rw [List.all_cons, Bool.and_eq_true] at h
    obtain ⟨hchar, hencode⟩ := exists_of_isVisibleByte h.1
    obtain ⟨hbytes, hvisible⟩ := ih h.2
    rw [List.map_cons, utf8_cons, hencode, hbytes]
    exact ⟨rfl, List.forall_mem_cons.mpr ⟨hchar, hvisible⟩⟩

theorem visible_of_utf8 {s : List Char} (h : ∀ c ∈ s, IsVisible c) :
    (utf8 s).all isVisibleByte = true ∧ (utf8 s).map (fun b => Char.ofNat b.toNat) = s := by
  induction s with
  | nil => exact ⟨rfl, rfl⟩
  | cons c s ih =>
    obtain ⟨hc, hs⟩ := List.forall_mem_cons.mp h
    obtain ⟨b, hb, hvisible, hchar, -⟩ := hc.exists_byte
    obtain ⟨hall, hmap⟩ := ih hs
    rw [utf8_cons, hb, List.singleton_append, List.all_cons, List.map_cons, hvisible, hall, hmap,
      hchar]
    exact ⟨rfl, rfl⟩

theorem visibleText?_eq_some_iff {bs : Bytes} {s : List Char} :
    visibleText? bs = some s ↔ bs = utf8 s ∧ ∀ c ∈ s, IsVisible c := by
  unfold visibleText?
  split_ifs with hall
  · obtain ⟨hbytes, hvisible⟩ := utf8_of_visible hall
    rw [Option.some.injEq]
    constructor
    · rintro rfl
      exact ⟨hbytes.symm, hvisible⟩
    · rintro ⟨rfl, hs⟩
      exact (visible_of_utf8 hs).2
  · refine iff_of_false nofun ?_
    rintro ⟨rfl, hs⟩
    exact hall (visible_of_utf8 hs).1

/-- What is left of visible text without the blanks at its end. -/
theorem rdropWhile_utf8_eq_self_iff {s : List Char} (hs : ∀ c ∈ s, IsVisible c) :
    (utf8 s).rdropWhile isBlankByte = utf8 s ↔ s.getLast? ≠ some ' ' ∧ s.getLast? ≠ some '\t' := by
  rcases List.eq_nil_or_concat s with rfl | ⟨front, c, rfl⟩
  · exact iff_of_true rfl ⟨nofun, nofun⟩
  · obtain ⟨b, hb, -, -, hblank⟩ := (hs c (by simp)).exists_byte
    have hbytes : utf8 (front.concat c) = utf8 front ++ [b] := by
      rw [List.concat_eq_append]
      unfold utf8
      rw [List.flatMap_append, List.flatMap_singleton, hb]
    rw [hbytes, List.rdropWhile_eq_self_iff]
    simp [hblank]

theorem isHeaderValue_of_visible {bs : Bytes} (h : bs.all isVisibleByte = true) :
    isHeaderValue bs = true := by
  rw [List.all_eq_true] at h
  refine List.all_eq_true.mpr fun b hb => ?_
  have hvisible := h b hb
  unfold isVisibleByte at hvisible
  unfold isValueByte
  simp only [Bool.or_eq_true, Bool.and_eq_true, decide_eq_true_iff] at hvisible ⊢
  rcases hvisible with ⟨hlow, hhigh⟩ | htab
  · refine .inl ⟨hlow, ?_⟩
    rintro rfl
    exact absurd hhigh (by decide)
  · exact .inr htab

/-! ## The request -/

namespace AdminClient

def authorization (key : String) : Bytes := bytesOf ("Bearer " ++ key)

theorem authorization_eq (key : String) : authorization key = utf8 (Admin.scheme ++ key.toList) := by
  unfold authorization bytesOf
  rw [String.toList_append]
  rfl

theorem isHeaderValue_authorization {key : String} (h : IsKey key) :
    isHeaderValue (authorization key) = true := by
  rw [authorization_eq]
  have hscheme : ∀ c ∈ Admin.scheme, IsVisible c := List.all_iff_forall_prop.mp (by decide)
  refine isHeaderValue_of_visible (visible_of_utf8 fun c hc => ?_).1
  exact (List.mem_append.mp hc).elim (hscheme c) (h.visible c)

/-- A key is read from the header if it comes through it as it is, and only then. -/
theorem visibleText?_authorization_iff {key : String} (hne : key.toList ≠ []) :
    visibleText? ((authorization key).rdropWhile isBlankByte) = some (Admin.scheme ++ key.toList) ↔
      IsKey key := by
  have hscheme : ∀ c ∈ Admin.scheme, IsVisible c := List.all_iff_forall_prop.mp (by decide)
  have hall : (∀ c ∈ Admin.scheme ++ key.toList, IsVisible c) ↔ ∀ c ∈ key.toList, IsVisible c := by
    rw [List.forall_mem_append]
    exact and_iff_right hscheme
  have hlast : (Admin.scheme ++ key.toList).getLast? = key.toList.getLast? := by
    rw [List.getLast?_append, List.getLast?_eq_some_getLast hne, Option.some_or]
  rw [visibleText?_eq_some_iff, authorization_eq, hall]
  constructor
  · rintro ⟨hself, hvisible⟩
    exact ⟨hvisible, hlast ▸ (rdropWhile_utf8_eq_self_iff (hall.mpr hvisible)).mp hself⟩
  · rintro ⟨hvisible, hend⟩
    exact ⟨(rdropWhile_utf8_eq_self_iff (hall.mpr hvisible)).mpr (hlast ▸ hend), hvisible⟩

/-- The request for a reset has the URL that comes of the name. There is none if the key cannot stand
in a header or the URL is too long. -/
theorem request_reset [Idna] {text : String} {scheme : List Char} {a : Authority}
    (hf : Front (dropEnd '/' text.toList) scheme a) (hsite : Uri.IsAuthority (siteText a))
    (key name : String) :
    Url.parse (dropEnd '/' text.toList ++ Resource.resetPath name.toList) =
        .ok (Resource.resetUrl scheme a name.toList) ∧
      request ⟨text, key, .reset name⟩ =
        if isHeaderValue (authorization key) = true ∧
            byteLength (withoutUser (Resource.resetUrl scheme a name.toList)).text ≤ Uri.maxLength then
          some ⟨.post,
            { withoutUser (Resource.resetUrl scheme a name.toList) with fragment := none },
            authorization key⟩
        else none := by
  have hparse : Url.parse (dropEnd '/' text.toList ++ Resource.resetPath name.toList) =
      .ok (Resource.resetUrl scheme a name.toList) := by
    rw [Resource.resetPath_eq_cons]
    refine hf.parse_eq _ fun c hc => ?_
    unfold Resource.resetText at hc
    have hlast : ('/' :: "reset".toList).getLast? = some 't' := by decide
    rw [List.getLast?_append, List.getLast?_cons, List.getLast?_append, hlast, Option.some_or,
      Option.some_or, Option.getD_some] at hc
    obtain rfl := Option.some.inj hc
    decide
  refine ⟨hparse, ?_⟩
  show (if isHeaderValue (authorization key) = true then
    ((Url.parse (dropEnd '/' text.toList ++ Resource.resetPath name.toList)).toOption.bind
      destination?).map _ else none) = _
  rw [hparse]
  show (if _ then (destination? (pasted scheme a _)).map _ else none) = _
  rw [destination?_pasted hf _ hsite]
  unfold Resource.resetUrl
  by_cases hheader : isHeaderValue (authorization key) = true
  · rw [if_pos hheader]
    split_ifs with hlong hsent hsent
    · exact absurd hsent.2 (Nat.not_le.mpr hlong)
    · rfl
    · rfl
    · exact absurd ⟨hheader, Nat.not_lt.mp hlong⟩ hsent
  · rw [if_neg hheader, if_neg fun h => hheader h.1]

end AdminClient

namespace AdminRequest

/-- What is written for the target of a request: its path and its query. -/
def target (r : AdminRequest) : List Char := r.url.path ++ (r.url.query.map ('?' :: ·)).getD []

/-- A request of the admin client as it comes in at a gateway: its method, its target and its
authorization are those that were sent, but for blanks at the end of a header. -/
structure Arrives (r : AdminRequest) (q : Request) : Prop where
  method : q.method = r.method
  uri : Uri.parse r.target = .ok q.uri
  authorization : Headers.first? Admin.authorizationHeader q.headers =
    some (r.authorization.rdropWhile isBlankByte)

/-- A request with a target that can be read can come in. -/
theorem exists_arrives {r : AdminRequest} {uri : Uri} (h : Uri.parse r.target = .ok uri) :
    ∃ q, r.Arrives q := by
  refine ⟨⟨r.method, uri, [⟨Admin.authorizationHeader, r.authorization.rdropWhile isBlankByte⟩], [],
    none, none⟩, rfl, h, ?_⟩
  unfold Headers.first? Headers.values
  rw [List.filter_cons_of_pos (by simp)]
  rfl

theorem shows_iff_of_arrives {r : AdminRequest} {q : Request} (h : r.Arrives q) {key : String}
    (hauthorization : r.authorization = AdminClient.authorization key) (hne : key.toList ≠ []) :
    Admin.Shows key.toList q.headers ↔ IsKey key := by
  unfold Admin.Shows
  rw [h.authorization, hauthorization, ← AdminClient.visibleText?_authorization_iff hne]
  simp [hne]

end AdminRequest

/-- **With a right address the request for a reset is sent** unless the key cannot stand in a header
or the URL is too long, whatever the name of the service is, and its target is read as the path and
the query of the URL. -/
theorem sent_reset [Idna] {text : String} (haddress : IsAddress text) (key name : String) :
    ∃ scheme a, (scheme = "http".toList ∨ scheme = "https".toList) ∧
      Url.parse (dropEnd '/' text.toList ++ Resource.resetPath name.toList) =
        .ok (Resource.resetUrl scheme a name.toList) ∧
      ((AdminClient.mk text key (.reset name)).request.isSome = true ↔
        isHeaderValue (authorization key) = true ∧
          byteLength (withoutUser (Resource.resetUrl scheme a name.toList)).text ≤ Uri.maxLength) ∧
      ∀ r, (AdminClient.mk text key (.reset name)).request = some r →
        r.method = .post ∧ r.authorization = authorization key ∧
          Uri.parse r.target = .ok ⟨none, none, (Resource.resetUrl scheme a name.toList).path,
            (Resource.resetUrl scheme a name.toList).query⟩ := by
  obtain ⟨scheme, a, hf, hsite⟩ := front_of_isAddress haddress
  obtain ⟨hparse, hrequest⟩ := request_reset hf hsite key name
  refine ⟨scheme, a, hf.web, hparse, ?_, fun r hr => ?_⟩
  · rw [hrequest, Option.isSome_ite]
  · rw [hrequest, Option.ite_none_right_eq_some] at hr
    obtain ⟨⟨-, hshort⟩, hr⟩ := hr
    cases hr
    exact ⟨rfl, rfl, (web_pasted hf _).parse_target (isPathChar_rootedPath hf.web _)
      (isQueryChar_splitTail _) (Nat.not_lt.mpr hshort)⟩

end CommandLine

end Gatehouse
