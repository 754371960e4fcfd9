import Gatehouse.Config.Codec
import Mathlib.Data.List.Forall2
import Mathlib.Data.List.Nodup
import Mathlib.Data.List.Pairwise
import Mathlib.Tactic.MkIffOfInductiveProp
import Mathlib.Tactic.SplitIfs

/-!
# The ways to write a value

There are many trees that are read as the same value: a section may leave out settings that have their
defaults, may hold entries that mean nothing, and may be a list as well as a table, and so may the
sections inside it. A schema of a section says which values its settings read and write and that no
setting touches another. Whatever is written after a schema is read back.

* `Codec.Spelling` : ways to write the values of a codec, all of which are read back, and what leads
  from one to another;
* `Codec.Spelling.exact`, `Codec.Spelling.list` : the one way of a plain value, and those of lists;
* `Field`, `Field.Apart` : a setting with its place in a section; two settings with places of their
  own;
* `Schema`, `Schema.Writes`, `Schema.Edits` : the settings of a section, the ways to write it, and
  what may be done to it as it is written;
* `Schema.readEntries_of_known`, `Schema.readItems_of_items` : what is read from a table, and from a
  list;
* `Schema.decode_of_writes` : whatever way a section is written, it is read back;
* `Schema.writes_encode`, `Schema.writes_of_edits` : its codec writes it in one of the ways, and what
  may be done to it leads to others;
* `Schema.spelling` : the ways to write a section as those of its codec.
-/

namespace Gatehouse.Config

open Gatehouse.Document

/-- One element of a list is replaced, and still fits the element at its place in another list. -/
theorem forall₂_set {α β : Type*} {R : α → β → Prop} {as : List α} {bs : List β}
    (h : List.Forall₂ R as bs) {k : Nat} {a : α} {b b' : β} (ha : as[k]? = some a)
    (hb : bs[k]? = some b) (hfits : R a b → R a b') : List.Forall₂ R as (bs.set k b') := by
  induction h generalizing k with
  | nil => cases ha
  | cons hhead htail ih =>
    cases k with
    | zero =>
      cases ha
      cases hb
      exact .cons (hfits hhead) htail
    | succ k => exact .cons hhead (ih ha hb)

/-! ## Values -/

namespace Codec

variable {α : Type}

/-- Ways to write the values of a codec, all of which are read back. One of them is the codec's own,
and from one of them `Edits` leads to another. -/
structure Spelling (c : Codec α) where
  spells : α → Tree → Prop
  Edits : α → Tree → Tree → Prop
  spells_encode : ∀ a, spells a (c.encode a)
  spells_of_edits : ∀ {a t u}, spells a t → Edits a t u → spells a u
  decode_eq : ∀ {a t}, spells a t → c.decode t = .ok a

namespace Spelling

def exact (c : Codec α) (h : ∀ a, c.decode (c.encode a) = .ok a) : c.Spelling where
  spells a t := t = c.encode a
  Edits _ _ _ := False
  spells_encode _ := rfl
  spells_of_edits _ h := h.elim
  decode_eq := by
    rintro a _ rfl
    exact h a

def text : Codec.text.Spelling := exact Codec.text fun _ => rfl

def truth : Codec.truth.Spelling := exact Codec.truth fun _ => rfl

def real : Codec.real.Spelling := exact Codec.real fun _ => rfl

theorem natural_of_le (expected : String) {limit n : Nat} (h : n ≤ limit) :
    natural expected limit (.int n) = .ok n := by
  have hrange : (0 : Int) ≤ n ∧ (n : Int) ≤ limit := ⟨Int.natCast_nonneg n, Int.ofNat_le.mpr h⟩
  rw [natural, if_pos hrange, Int.toNat_natCast]

def word32 : Codec.word32.Spelling := exact Codec.word32 fun n => by
  have hle : n.toNat ≤ UInt32.size - 1 := Nat.le_sub_one_of_lt n.toNat_lt
  show (natural "u32" (UInt32.size - 1) (.int n.toNat)).map UInt32.ofNat = .ok n
  rw [natural_of_le "u32" hle]
  exact congrArg Except.ok UInt32.ofNat_toNat

def word64 : Codec.word64.Spelling := exact Codec.word64 fun n => by
  have hle : n.toNat ≤ UInt64.size - 1 := Nat.le_sub_one_of_lt n.toNat_lt
  show (natural "u64" (UInt64.size - 1) (.int n.toNat)).map UInt64.ofNat = .ok n
  rw [natural_of_le "u64" hle]
  exact congrArg Except.ok UInt64.ofNat_toNat

/-- One item of a list is written in another way. -/
inductive ListEdits {c : Codec α} (item : c.Spelling) (as : List α) : Tree → Tree → Prop
  | item {ts : List Tree} {k : Nat} {a : α} {t u : Tree} (ha : as[k]? = some a)
      (ht : ts[k]? = some t) (h : item.Edits a t u) : ListEdits item as (.list ts) (.list (ts.set k u))

def list {c : Codec α} (item : c.Spelling) : c.list.Spelling where
  spells as t := ∃ ts, t = .list ts ∧ List.Forall₂ item.spells as ts
  Edits := item.ListEdits
  spells_encode as := by
    refine ⟨as.map c.encode, rfl, ?_⟩
    rw [List.forall₂_map_right_iff, List.forall₂_same]
    exact fun a _ => item.spells_encode a
  spells_of_edits := by
    rintro as _ _ ⟨ts, rfl, hitems⟩ (⟨ha, ht, h⟩)
    exact ⟨_, rfl, forall₂_set hitems ha ht fun hitem => item.spells_of_edits hitem h⟩
  decode_eq := by
    rintro as _ ⟨ts, rfl, hitems⟩
    show ts.mapM c.decode = .ok as
    induction hitems with
    | nil => rfl
    | cons ha _ ih =>
      rw [List.mapM_cons, item.decode_eq ha, ih]
      rfl

end Spelling

end Codec

/-! ## Settings -/

/-- A setting with its place in a section and the ways to write it. -/
structure Field (σ : Type) where
  name : String
  Value : Type
  codec : Codec Value
  spelling : codec.Spelling
  get : σ → Value
  set : Value → σ → σ
  get_set : ∀ v s, get (set v s) = v

namespace Field

variable {σ : Type}

def setting (f : Field σ) : Setting σ := Config.setting f.name f.codec f.get f.set

def Writes (f : Field σ) (s : σ) (t : Tree) : Prop := f.spelling.spells (f.get s) t

theorem read_of_writes (f : Field σ) {s : σ} {t : Tree} (h : f.Writes s t) (r : σ) :
    f.setting.read r t = .ok (f.set (f.get s) r) := by
  show (f.codec.decode t).map _ = _
  rw [f.spelling.decode_eq h]
  rfl

/-- Two settings of different names, neither of which changes the other. -/
@[mk_iff]
structure Apart (f g : Field σ) : Prop where
  name_ne : f.name ≠ g.name
  get_set : ∀ v s, f.get (g.set v s) = f.get s
  get_set' : ∀ v s, g.get (f.set v s) = g.get s

theorem Apart.symm {f g : Field σ} (h : Apart f g) : Apart g f :=
  ⟨h.name_ne.symm, h.get_set', h.get_set⟩

instance : Std.Symm (@Apart σ) := ⟨fun _ _ h => h.symm⟩

end Field

/-! ## Sections -/

/-- The settings of a section, which are apart from each other and all there is to it. -/
structure Schema {σ : Type} (x : Section σ) where
  fields : List (Field σ)
  settings_eq : x.settings = fields.map Field.setting
  required_le : x.required ≤ fields.length
  apart : fields.Pairwise Field.Apart
  ext : ∀ {r s}, (∀ f ∈ fields, f.get r = f.get s) → r = s

namespace Schema

variable {σ : Type} {x : Section σ} (c : Schema x)

/-- The ways to write a section. Inside it everything may be written in any way again. -/
inductive Writes (s : σ) : Tree → Prop
  /-- As a table. Settings that have defaults may be left out where they have them, and names that
  mean nothing may be there. -/
  | table {entries : List (String × Tree)} (keys : (entries.map Prod.fst).Nodup)
      (known : ∀ f ∈ c.fields, ∀ t, (f.name, t) ∈ entries → f.Writes s t)
      (removed : ∀ f ∈ c.fields, f.name ∉ entries.map Prod.fst →
        f ∈ c.fields.drop x.required ∧ f.get s = f.get x.start) : Writes s (.table entries)
  /-- As the list of its settings. -/
  | list {ts : List Tree} (items : List.Forall₂ (fun f t => f.Writes s t) c.fields ts) :
    Writes s (.list ts)

/-- What may be done to a section as it is written. -/
inductive Edits (s : σ) : Tree → Tree → Prop
  /-- A setting that has its default is removed. -/
  | remove (front back : List (String × Tree)) {f : Field σ} {t : Tree}
      (hf : f ∈ c.fields.drop x.required) (hdefault : f.get s = f.get x.start) :
    Edits s (.table (front ++ (f.name, t) :: back)) (.table (front ++ back))
  /-- An entry that means nothing is added. -/
  | add (front back : List (String × Tree)) {key : String} (t : Tree)
      (hkey : ∀ f ∈ c.fields, f.name ≠ key) (hnew : key ∉ (front ++ back).map Prod.fst) :
    Edits s (.table (front ++ back)) (.table (front ++ (key, t) :: back))
  /-- The entries stand in another order. -/
  | reorder {entries others : List (String × Tree)} (h : entries.Perm others) :
    Edits s (.table entries) (.table others)
  /-- The section is written as the list of its settings. -/
  | enlist {entries : List (String × Tree)} : Edits s (.table entries) (.list (c.fields.map fun f =>
      (Tree.find? f.name entries).getD (f.codec.encode (f.get s))))
  /-- A setting is written in another way. -/
  | entry (front back : List (String × Tree)) {f : Field σ} {t u : Tree} (hf : f ∈ c.fields)
      (h : f.spelling.Edits (f.get s) t u) :
    Edits s (.table (front ++ (f.name, t) :: back)) (.table (front ++ (f.name, u) :: back))
  | item {ts : List Tree} {k : Nat} {f : Field σ} {t u : Tree} (hf : c.fields[k]? = some f)
      (ht : ts[k]? = some t) (h : f.spelling.Edits (f.get s) t u) :
    Edits s (.list ts) (.list (ts.set k u))

section Fields
variable {f g : Field σ} (hf : f ∈ c.fields) (hg : g ∈ c.fields)
include hf hg

theorem apart_of_name_ne (hne : f.name ≠ g.name) : Field.Apart f g :=
  c.apart.forall hf hg fun heq => hne (congrArg Field.name heq)

theorem eq_of_name_eq (hname : f.name = g.name) : f = g := by
  by_contra hne
  exact (c.apart.forall hf hg hne).name_ne hname

end Fields

theorem names_nodup : (c.fields.map Field.name).Nodup :=
  List.pairwise_map.mpr (c.apart.imp Field.Apart.name_ne)

/-- Either a key means nothing, or it is the name of a setting. -/
theorem find?_settings (key : String) :
    ((x.settings.find? fun g => g.name = key) = none ∧ ∀ f ∈ c.fields, f.name ≠ key) ∨
      ∃ f ∈ c.fields, f.name = key ∧
        (x.settings.find? fun g => g.name = key) = some f.setting := by
  have hfind : (x.settings.find? fun g => g.name = key) =
      (c.fields.find? fun f => f.name = key).map Field.setting := by
    rw [c.settings_eq]
    exact List.find?_map
  rw [hfind]
  cases hf : c.fields.find? fun f => f.name = key with
  | none =>
    refine .inl ⟨rfl, fun f hmem hname => ?_⟩
    simpa [hname] using List.find?_eq_none.mp hf f hmem
  | some f =>
    have hname : f.name = key := by simpa using List.find?_some hf
    exact .inr ⟨f, List.mem_of_find?_eq_some hf, hname, rfl⟩

/-! ## Reading -/

/-- What is read from the entries of a table: the settings that are there, and no others. -/
theorem readEntries_of_known {s : σ} {entries : List (String × Tree)}
    (keys : (entries.map Prod.fst).Nodup)
    (known : ∀ f ∈ c.fields, ∀ t, (f.name, t) ∈ entries → f.Writes s t) (r : σ) :
    ∃ r', Section.readEntries x.settings r entries = .ok r' ∧
      ∀ f ∈ c.fields, f.get r' =
        if f.name ∈ entries.map Prod.fst then f.get s else f.get r := by
  induction entries generalizing r with
  | nil => exact ⟨r, rfl, fun f _ => rfl⟩
  | cons e entries ih =>
    obtain ⟨key, t⟩ := e
    obtain ⟨hkey, hkeys⟩ := List.nodup_cons.mp keys
    have hrest : ∀ f ∈ c.fields, ∀ t, (f.name, t) ∈ entries → f.Writes s t :=
      fun f hf t ht => known f hf t (List.mem_cons_of_mem _ ht)
    rcases c.find?_settings key with ⟨hfind, hmeaningless⟩ | ⟨g, hg, rfl, hfind⟩
    · obtain ⟨r', hread, hget⟩ := ih hkeys hrest r
      refine ⟨r', ?_, fun f hf => ?_⟩
      · rw [Section.readEntries, hfind]
        exact hread
      · rw [hget f hf]
        refine if_congr ?_ rfl rfl
        rw [List.map_cons, List.mem_cons, or_iff_right (hmeaningless f hf)]
    · obtain ⟨r', hread, hget⟩ := ih hkeys hrest (g.set (g.get s) r)
      have hwritten := known g hg t List.mem_cons_self
      refine ⟨r', ?_, fun f hf => ?_⟩
      · rw [Section.readEntries, hfind]
        show (do Section.readEntries x.settings (← g.setting.read r t) entries) = _
        rw [g.read_of_writes hwritten]
        exact hread
      · rw [hget f hf, List.map_cons]
        by_cases hname : f.name = g.name
        · obtain rfl := c.eq_of_name_eq hf hg hname
          rw [if_neg hkey, if_pos List.mem_cons_self, f.get_set]
        · rw [(c.apart_of_name_ne hf hg hname).get_set]
          exact if_congr (by rw [List.mem_cons, or_iff_right hname]) rfl rfl

theorem readItems_of_items {s : σ} {fields : List (Field σ)} {ts : List Tree}
    (hapart : fields.Pairwise Field.Apart)
    (items : List.Forall₂ (fun f t => f.Writes s t) fields ts) (r : σ) :
    ∃ r', Section.readItems r (fields.map Field.setting) ts = .ok (r', []) ∧
      (∀ f ∈ fields, f.get r' = f.get s) ∧
      ∀ g : Field σ, (∀ f ∈ fields, Field.Apart g f) → g.get r' = g.get r := by
  induction items generalizing r with
  | nil => exact ⟨r, rfl, fun f hf => absurd hf List.not_mem_nil, fun g _ => rfl⟩
  | @cons f t fields ts hwritten items ih =>
    obtain ⟨hhead, htail⟩ := List.pairwise_cons.mp hapart
    obtain ⟨r', hread, hget, hkept⟩ := ih htail (f.set (f.get s) r)
    refine ⟨r', ?_, fun g hg => ?_, fun g hg => ?_⟩
    · show (do Section.readItems (← f.setting.read r t) (fields.map Field.setting) ts) = _
      rw [f.read_of_writes hwritten]
      exact hread
    · rcases List.mem_cons.mp hg with rfl | hg
      · rw [hkept g hhead, g.get_set]
      · exact hget g hg
    · rw [hkept g fun h hh => hg h (List.mem_cons_of_mem f hh),
        (hg f List.mem_cons_self).get_set]

theorem missing?_eq_none {entries : List (String × Tree)}
    (h : ∀ f ∈ c.fields, f.name ∉ entries.map Prod.fst → f ∈ c.fields.drop x.required) :
    x.missing? entries = none := by
  have hthere : ∀ f ∈ c.fields.take x.required, f.name ∈ entries.map Prod.fst := by
    intro f hf
    by_contra hnot
    have hnodup : c.fields.Nodup := c.names_nodup.of_map _
    exact List.disjoint_take_drop hnodup (Nat.le_refl _) hf (h f (List.mem_of_mem_take hf) hnot)
  unfold Section.missing?
  rw [Option.map_eq_none_iff, List.find?_eq_none, c.settings_eq, ← List.map_take]
  intro g hg
  obtain ⟨f, hf, rfl⟩ := List.mem_map.mp hg
  obtain ⟨e, he, hkey⟩ := List.mem_map.mp (hthere f hf)
  have hsome : (entries.find? fun e => e.1 = f.name).isSome = true :=
    List.find?_isSome.mpr ⟨e, he, decide_eq_true hkey⟩
  show ¬ ((entries.find? fun e => e.1 = f.name).map Prod.snd).isNone = true
  rw [Option.isNone_map, ← Option.not_isSome, hsome]
  exact Bool.false_ne_true

/-- **Whatever way a section is written, it is read back.** -/
theorem decode_of_writes (n : Notation) {s : σ} {t : Tree} (h : c.Writes s t) :
    (x.codec n).decode t = .ok s := by
  cases h with
  | @table entries keys known removed =>
    obtain ⟨r, hread, hget⟩ := c.readEntries_of_known keys known x.start
    have hr : r = s := by
      refine c.ext fun f hf => ?_
      rw [hget f hf]
      split_ifs with hthere
      · rfl
      · exact (removed f hf hthere).2.symm
    have hmissing := c.missing?_eq_none fun f hf hnot => (removed f hf hnot).1
    rw [hr] at hread
    show x.ofEntries entries = .ok s
    simp only [Section.ofEntries, hread, hmissing]
    rfl
  | @list ts items =>
    obtain ⟨r, hread, hget, -⟩ := readItems_of_items c.apart items x.start
    rw [← c.settings_eq, c.ext hget] at hread
    have hlength : ¬ ts.length < x.required := by
      rw [← items.length_eq]
      exact Nat.not_lt.mpr c.required_le
    show x.ofItems n ts = .ok s
    unfold Section.ofItems
    rw [hread]
    show (if ts.length < x.required then _ else
      if !([] : List Tree).isEmpty ∧ !n.extraItems then _ else _) = _
    rw [if_neg hlength, if_neg fun h => Bool.false_ne_true h.1]
    rfl

/-! ## Writing -/

theorem writes_encode (n : Notation) (s : σ) : c.Writes s ((x.codec n).encode s) := by
  have hentries : x.settings.map (fun f => (f.name, f.write s)) =
      c.fields.map fun f => (f.name, f.codec.encode (f.get s)) := by
    rw [c.settings_eq]
    exact List.map_map
  have hkeys : (c.fields.map fun f => (f.name, f.codec.encode (f.get s))).map Prod.fst =
      c.fields.map Field.name := List.map_map
  show c.Writes s (.table (x.settings.map fun f => (f.name, f.write s)))
  rw [hentries]
  refine .table ?_ (fun f hf t ht => ?_) fun f hf hnot => ?_
  · rw [hkeys]
    exact c.names_nodup
  · obtain ⟨g, hg, heq⟩ := List.mem_map.mp ht
    obtain ⟨hname, rfl⟩ := Prod.mk.inj heq
    obtain rfl := c.eq_of_name_eq hg hf hname
    exact g.spelling.spells_encode (g.get s)
  · rw [hkeys] at hnot
    exact absurd (List.mem_map_of_mem hf) hnot

section Edited
variable {s : σ} {front back entries : List (String × Tree)} {f : Field σ} {t : Tree}

theorem writes_remove (hf : f ∈ c.fields.drop x.required) (hdefault : f.get s = f.get x.start)
    (h : c.Writes s (.table (front ++ (f.name, t) :: back))) :
    c.Writes s (.table (front ++ back)) := by
  cases h with
  | table keys known removed =>
    have hsub : (front ++ back).Sublist (front ++ (f.name, t) :: back) :=
      (List.sublist_cons_self _ back).append_left front
    refine .table (keys.sublist (hsub.map Prod.fst))
      (fun g hg u hu => known g hg u (hsub.subset hu)) fun g hg hnot => ?_
    by_cases hname : g.name = f.name
    · obtain rfl := c.eq_of_name_eq hg (List.mem_of_mem_drop hf) hname
      exact ⟨hf, hdefault⟩
    · refine removed g hg fun hthere => hnot ?_
      rw [List.map_append, List.map_cons, List.mem_append, List.mem_cons, or_iff_right hname] at hthere
      rw [List.map_append, List.mem_append]
      exact hthere

theorem writes_add {key : String} (hkey : ∀ f ∈ c.fields, f.name ≠ key)
    (hnew : key ∉ (front ++ back).map Prod.fst) (h : c.Writes s (.table (front ++ back))) :
    c.Writes s (.table (front ++ (key, t) :: back)) := by
  cases h with
  | table keys known removed =>
    have hsub : (front ++ back).Sublist (front ++ (key, t) :: back) :=
      (List.sublist_cons_self _ back).append_left front
    refine .table ?_ (fun g hg u hu => ?_) fun g hg hnot => removed g hg fun hthere =>
      hnot ((hsub.map Prod.fst).subset hthere)
    · rw [List.map_append, List.map_cons, List.nodup_middle, ← List.map_append]
      exact List.nodup_cons.mpr ⟨hnew, keys⟩
    · rcases List.mem_append.mp hu with hu | hu
      · exact known g hg u (List.mem_append_left back hu)
      · rcases List.mem_cons.mp hu with heq | hu
        · exact absurd (Prod.mk.inj heq).1 (hkey g hg)
        · exact known g hg u (List.mem_append_right front hu)

theorem writes_reorder {others : List (String × Tree)} (hp : entries.Perm others)
    (h : c.Writes s (.table entries)) : c.Writes s (.table others) := by
  cases h with
  | table keys known removed =>
    have hkeys := hp.map Prod.fst
    exact .table (hkeys.nodup_iff.mp keys) (fun g hg u hu => known g hg u (hp.mem_iff.mpr hu))
      fun g hg hnot => removed g hg fun hthere => hnot (hkeys.mem_iff.mp hthere)

theorem writes_enlist (h : c.Writes s (.table entries)) : c.Writes s (.list (c.fields.map fun f =>
    (Tree.find? f.name entries).getD (f.codec.encode (f.get s)))) := by
  cases h with
  | table keys known removed =>
    refine .list ?_
    rw [List.forall₂_map_right_iff, List.forall₂_same]
    intro f hf
    cases ht : Tree.find? f.name entries with
    | none => exact f.spelling.spells_encode (f.get s)
    | some t =>
      obtain ⟨e, he, rfl⟩ := Option.map_eq_some_iff.mp ht
      have hname : e.1 = f.name := by simpa using List.find?_some he
      refine known f hf e.2 ?_
      rw [← hname]
      exact List.mem_of_find?_eq_some he

theorem writes_entry {u : Tree} (hf : f ∈ c.fields) (hedit : f.spelling.Edits (f.get s) t u)
    (h : c.Writes s (.table (front ++ (f.name, t) :: back))) :
    c.Writes s (.table (front ++ (f.name, u) :: back)) := by
  cases h with
  | table keys known removed =>
    have hkeys : (front ++ (f.name, u) :: back).map Prod.fst =
        (front ++ (f.name, t) :: back).map Prod.fst := by
      rw [List.map_append, List.map_append, List.map_cons, List.map_cons]
    refine .table (hkeys ▸ keys) (fun g hg v hv => ?_) fun g hg hnot => removed g hg (hkeys ▸ hnot)
    rcases List.mem_append.mp hv with hv | hv
    · exact known g hg v (List.mem_append_left _ hv)
    · rcases List.mem_cons.mp hv with heq | hv
      · obtain ⟨hname, rfl⟩ := Prod.mk.inj heq
        obtain rfl := c.eq_of_name_eq hg hf hname
        have hwritten := known g hg t (List.mem_append_right front List.mem_cons_self)
        exact g.spelling.spells_of_edits hwritten hedit
      · exact known g hg v (List.mem_append_right front (List.mem_cons_of_mem _ hv))

theorem writes_of_edits {u : Tree} (h : c.Writes s t) (hedit : c.Edits s t u) : c.Writes s u := by
  cases hedit with
  | remove front back hf hdefault => exact c.writes_remove hf hdefault h
  | add front back t hkey hnew => exact c.writes_add hkey hnew h
  | reorder hp => exact c.writes_reorder hp h
  | enlist => exact c.writes_enlist h
  | entry front back hf hedit => exact c.writes_entry hf hedit h
  | @item ts k f t u hf ht hedit =>
    cases h with
    | list items =>
      exact .list (forall₂_set items hf ht fun hitem => f.spelling.spells_of_edits hitem hedit)

end Edited

/-- The ways to write a section, for the sections that it is part of. -/
def spelling (n : Notation) : (x.codec n).Spelling where
  spells := c.Writes
  Edits := c.Edits
  spells_encode := c.writes_encode n
  spells_of_edits := c.writes_of_edits
  decode_eq := c.decode_of_writes n

end Schema

end Gatehouse.Config
