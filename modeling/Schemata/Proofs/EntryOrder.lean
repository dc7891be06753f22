import Mathlib.Data.List.Perm.Basic
import Schemata.Proofs.NodeSpelling
import Schemata.Proofs.Positions
/-!
The order of entries.

A description is read key by key, and in most of its objects the order of the entries says nothing. The
objects in which it does are those whose entries are read one after the other: the properties of an
object, the arguments of a rule and literal values. `Position` says what a value stands for, and
`Reordered` relates two values that only differ in the order of entries, on any level, in objects whose
order says nothing. Such objects hold the same under every key that a reader looks up.

Component: the entries of descriptions, `Entries.get?`. Main results:
- `Entries.get?_perm` — in another order every name has the same value;
- `Reordered.matches` — reordered objects agree on every key of their position;
- `readList_reordered` — lists are read alike if their items are.
-/

namespace Schemata

open Checked

/-- The strings in front of the entries of an object. -/
def Entries.names (entries : Entries) : List String := entries.filterMap fun entry => entry.1.text?

mutual
/-- Two values in a position differ at most in the order of entries, where it says nothing. -/
inductive Reordered : Position → Value → Value → Prop where
  | same (position : Position) (v : Value) : Reordered position v v
  /-- An object has one entry for each name. The values under its keys may be reordered too. -/
  | object {position : Position} {raw inner raw' : Entries} (hposition : position.isUnordered = true)
      (hnames : raw.names.Nodup) (h : ReorderedEntries position raw inner) (horder : inner.Perm raw') :
      Reordered position (.map raw) (.map raw')
  | properties {raw raw' : Entries} (h : ReorderedEntries .properties raw raw') :
      Reordered .properties (.map raw) (.map raw')
  | list {items : Position} {vs ws : List Value} (h : ReorderedItems items vs ws) :
      Reordered (.each items) (.list vs) (.list ws)
  | tuple {items : Position} {vs ws : List Value} (h : ReorderedItems items vs ws) :
      Reordered (.each items) (.tuple vs) (.tuple ws)
  /-- A test may be a description; otherwise it is values to compare with. -/
  | description {v w : Value} (hdescription : Case.isDescription v = true) (h : Reordered .node v w) :
      Reordered .test v w
/-- Items in the same order, each of them perhaps reordered. -/
inductive ReorderedItems : Position → List Value → List Value → Prop where
  | nil {items : Position} : ReorderedItems items [] []
  | cons {items : Position} {v w : Value} {vs ws : List Value} (h : Reordered items v w)
      (hrest : ReorderedItems items vs ws) : ReorderedItems items (v :: vs) (w :: ws)
/-- Entries in the same order, the values in each of them perhaps reordered. -/
inductive ReorderedEntries : Position → Entries → Entries → Prop where
  | nil {position : Position} : ReorderedEntries position [] []
  | cons {position : Position} {key v w : Value} {raw raw' : Entries}
      (h : Reordered (position.under key) v w) (hrest : ReorderedEntries position raw raw') :
      ReorderedEntries position ((key, v) :: raw) ((key, w) :: raw')
end

/-! ## Looking up keys -/

namespace Entries

theorem get?_eq_some_iff {entries : Entries} (h : entries.names.Nodup) {name : String} {v : Value} :
    entries.get? name = some v ↔ (.str name, v) ∈ entries := by
  induction entries with
  | nil => simp [get?]
  | cons entry rest ih =>
    obtain ⟨key, value⟩ := entry
    by_cases hkey : key.isText name = true
    · obtain rfl : key = .str name := by
        cases key <;> simp_all [Value.isText]
      -- The name stands in front, and so nowhere else.
      have hnew : ∀ w, (Value.str name, w) ∉ rest := by
        intro w hmem
        have hfront : names ((.str name, value) :: rest) = name :: names rest := rfl
        rw [hfront, List.nodup_cons] at h
        exact h.1 (List.mem_filterMap.2 ⟨_, hmem, rfl⟩)
      simp [get?, Value.isText, hnew, eq_comm]
    · have hrest : (rest.filterMap fun entry => entry.1.text?).Nodup :=
        h.sublist ((List.sublist_cons_self _ _).filterMap _)
      have hne : key ≠ .str name := by
        rintro rfl
        simp [Value.isText] at hkey
      simp [get?, hkey, ih hrest, hne.symm]

/-- In another order every name has the same value. -/
theorem get?_perm {entries entries' : Entries} (h : entries.names.Nodup) (hperm : entries.Perm entries')
    (name : String) : entries.get? name = entries'.get? name := by
  have h' : entries'.names.Nodup := (hperm.filterMap _).nodup h
  refine Option.ext fun v => ?_
  rw [get?_eq_some_iff h, get?_eq_some_iff h', hperm.mem_iff]

end Entries

theorem ReorderedItems.forall₂ {items : Position} {vs ws : List Value}
    (h : ReorderedItems items vs ws) : List.Forall₂ (Reordered items) vs ws := by
  induction vs generalizing ws with
  | nil =>
    cases h
    exact .nil
  | cons v vs ih =>
    cases h with
    | cons h hrest => exact .cons h (ih hrest)

namespace ReorderedEntries

variable {position : Position} {raw raw' : Entries}

theorem names_eq (h : ReorderedEntries position raw raw') : raw.names = raw'.names := by
  induction raw generalizing raw' with
  | nil =>
    cases h
    rfl
  | cons entry rest ih =>
    cases h with
    | cons h hrest =>
      have hnames := ih hrest
      unfold Entries.names at hnames ⊢
      rw [List.filterMap_cons, List.filterMap_cons, hnames]

theorem get? (h : ReorderedEntries position raw raw') (name : String) :
    Option.Rel (Reordered (position.under (.str name))) (raw.get? name) (raw'.get? name) := by
  induction raw generalizing raw' with
  | nil =>
    cases h
    exact .none
  | cons entry rest ih =>
    cases h with
    | @cons _ key v w _ _ h hrest =>
      simp only [Entries.get?]
      split
      · rename_i hkey
        obtain rfl : key = .str name := by
          cases key <;> simp_all [Value.isText]
        exact .some h
      · exact ih hrest

end ReorderedEntries

/-! ## Objects that hold the same -/

namespace Position

/-- Two objects hold the same under every key that is looked up, up to the order of entries. -/
def Agrees (position : Position) (raw raw' : Entries) : Prop :=
  ∀ key ∈ position.keys, Option.Rel (Reordered key.2) (raw.get? key.1) (raw'.get? key.1)

/-- Two values are the same, or objects that hold the same. -/
def Matches (position : Position) (v w : Value) : Prop :=
  v = w ∨ ∃ raw raw', v = .map raw ∧ w = .map raw' ∧ position.Agrees raw raw'

namespace Agrees

variable {position : Position} {raw raw' : Entries}

theorem refl (position : Position) (raw : Entries) : position.Agrees raw raw :=
  fun key _ => optionRel_self (Reordered.same key.2) _

theorem mono {other : Position} (h : position.Agrees raw raw')
    (hkeys : ∀ key ∈ other.keys, key ∈ position.keys) : other.Agrees raw raw' :=
  fun key hkey => h key (hkeys key hkey)

theorem field {name : String} {inner : Position} (h : position.Agrees raw raw')
    (hkey : (name, inner) ∈ position.keys) : Reordered inner (raw.field name) (raw'.field name) := by
  have hrel := h (name, inner) hkey
  unfold Entries.field
  generalize raw.get? name = v, raw'.get? name = w at hrel
  cases hrel with
  | none => exact .same inner .null
  | some hrel => exact hrel

theorem get_eq {name : String} (h : position.Agrees raw raw')
    (hkey : (name, .value) ∈ position.keys) : raw.get? name = raw'.get? name := by
  have hvalue : ∀ {v w : Value}, Reordered .value v w → v = w := by
    intro v w h
    cases h with
    | same => rfl
    | object hposition => cases hposition
  have hrel := h (name, .value) hkey
  generalize raw.get? name = v, raw'.get? name = w at hrel ⊢
  cases hrel with
  | none => rfl
  | some hrel => rw [hvalue hrel]

theorem field_eq {name : String} (h : position.Agrees raw raw')
    (hkey : (name, .value) ∈ position.keys) : raw.field name = raw'.field name :=
  Entries.field_congr (h.get_eq hkey)

end Agrees

end Position

theorem Reordered.matches {position : Position} {v w : Value} (h : Reordered position v w)
    (hposition : position.isUnordered = true) : position.Matches v w := by
  cases h with
  | same => exact .inl rfl
  | object _ hnames h horder =>
    refine .inr ⟨_, _, rfl, rfl, fun key hkey => ?_⟩
    rw [← Entries.get?_perm (h.names_eq ▸ hnames) horder, ← Position.under_of_mem hkey]
    exact h.get? key.1
  | _ => cases hposition

/-! ## Outcomes side by side -/

namespace Checked

/-- Two outcomes are related results, or the same error. -/
inductive Both {α β : Type} (R : α → β → Prop) : Checked α → Checked β → Prop where
  | ok {a : α} {b : β} (h : R a b) : Both R (.ok a) (.ok b)
  | error (e : CompileError) : Both R (.error e) (.error e)

namespace Both

variable {α γ : Type} {R : α → α → Prop}

theorem refl (hR : ∀ a, R a a) (x : Checked α) : Both R x x := by
  cases x with
  | ok a => exact .ok (hR a)
  | error e => exact .error e

theorem eq {x y : Checked α} (h : Both Eq x y) : x = y := by
  cases h with
  | ok h => rw [h]
  | error e => rfl

theorem bind_eq {x y : Checked α} {f g : α → Checked γ} (h : Both R x y)
    (hfg : ∀ a b, R a b → f a = g b) : x >>= f = y >>= g := by
  cases h with
  | ok h => exact hfg _ _ h
  | error e => rfl

theorem bind {S : γ → γ → Prop} {x y : Checked α} {f g : α → Checked γ} (h : Both R x y)
    (hfg : ∀ a b, R a b → Both S (f a) (g b)) : Both S (x >>= f) (y >>= g) := by
  cases h with
  | ok h => exact hfg _ _ h
  | error e => exact .error e

end Both

end Checked

section Readers
variable {α : Type} {items : Position} {v w : Value}

theorem asEntries_both {position : Position} (h : position.Matches v w) (path : Path) :
    Both position.Agrees (v.asEntries path) (w.asEntries path) := by
  rcases h with rfl | ⟨raw, raw', rfl, rfl, hraw⟩
  · exact .refl (Position.Agrees.refl position) _
  · exact .ok hraw

theorem asItems_both (h : Reordered (.each items) v w) (path : Path) :
    Both (List.Forall₂ (Reordered items)) (v.asItems path) (w.asItems path) := by
  cases h with
  | same => exact .refl (fun vs => List.forall₂_same.2 fun v _ => .same items v) _
  | object hposition => cases hposition
  | list h => exact .ok h.forall₂
  | tuple h => exact .ok h.forall₂

theorem readEach_both {R : Value → Value → Prop} {S : α → α → Prop} {read : Value → Path → Checked α}
    (hread : ∀ v w, R v w → ∀ path, Both S (read v path) (read w path)) {vs ws : List Value}
    (h : List.Forall₂ R vs ws) (path : Path) :
    Both (List.Forall₂ S) (readEach read vs path) (readEach read ws path) := by
  -- The items are read one after the other, the first of them at any index.
  have hfrom : ∀ i, Both (List.Forall₂ S)
      ((vs.zipIdx i).mapM fun pair => read pair.1 (path.index pair.2))
      ((ws.zipIdx i).mapM fun pair => read pair.1 (path.index pair.2)) := by
    induction h with
    | nil => exact fun i => .ok .nil
    | cons hhead _ ih =>
      intro i
      simp only [List.zipIdx_cons, List.mapM_cons]
      exact (hread _ _ hhead _).bind fun a b hab => (ih (i + 1)).bind fun as bs habs =>
        .ok (.cons hab habs)
  exact hfrom 0

/-- Lists are read alike if their items are. -/
theorem readList_reordered {read : Value → Path → Checked α}
    (hread : ∀ v w, Reordered items v w → ∀ path, read v path = read w path)
    (h : Reordered (.each items) v w) (path : Path) : readList read v path = readList read w path := by
  refine (asItems_both h path).bind_eq fun vs ws hitems => ?_
  have hread' : ∀ v w, Reordered items v w → ∀ path, Both Eq (read v path) (read w path) := by
    intro v w h path
    rw [hread v w h path]
    exact .refl (fun _ => rfl) _
  have hboth := readEach_both hread' hitems path
  rw [List.forall₂_eq_eq_eq] at hboth
  exact hboth.eq

end Readers

end Schemata
