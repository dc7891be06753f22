import Mathlib.Data.List.Forall2
import Schemata.Node.Shape
import Schemata.Proofs.Outcome
/-!
Where the parts of a value stand.

The steps of a path are followed from a whole value: a name leads to the entry of a map, an index to
an item of a sequence. A check points into the value if every path it reports an error at can be
followed, except for its last step. `PointsInto` says that together with what holds of the result, so
that each reader has one statement about both outcomes.

Component: paths into values, `Path` and `Value`. Main results:
- `Entries.get?_of_mem` — with distinct names, every entry is the one that is looked up;
- `PointsInto.bind` — a composed check points into the value if its parts do.
-/

namespace Schemata

/-! ## Following steps -/

namespace Value

def step? (v : Value) : Step → Option Value
  | .key name => v.entries?.bind fun entries => Entries.get? entries name
  | .index i => if i < 0 then none else v.items?.bind fun items => items[i.toNat]?

def at? : Value → List Step → Option Value
  | v, [] => some v
  | v, s :: rest => (v.step? s).bind fun w => at? w rest

theorem at?_append (v : Value) (a b : List Step) :
    v.at? (a ++ b) = (v.at? a).bind fun w => w.at? b := by
  induction a generalizing v with
  | nil => rfl
  | cons s a ih =>
    simp only [List.cons_append, at?]
    cases v.step? s with
    | none => rfl
    | some w => exact ih w

theorem at?_snoc {v w : Value} {a : List Step} (h : v.at? a = some w) (s : Step) :
    v.at? (a ++ [s]) = w.step? s := by
  rw [at?_append, h]
  simp [at?]

/-! ## Maps with one entry per name -/

mutual
/-- Whether no map, on any level, has two entries under the same string. -/
def hasDistinctNames : Value → Bool
  | list items => itemsHaveDistinctNames items
  | tuple items => itemsHaveDistinctNames items
  | map entries => entriesHaveDistinctNames entries
  | _ => true
def itemsHaveDistinctNames : List Value → Bool
  | [] => true
  | item :: rest => hasDistinctNames item && itemsHaveDistinctNames rest
/-- Whether the entries of a map and the values in them have distinct names. -/
def entriesHaveDistinctNames : List (Value × Value) → Bool
  | [] => true
  | (key, value) :: rest =>
    !(key.text?.any fun name => Entries.has rest name) && hasDistinctNames value
      && entriesHaveDistinctNames rest
end

theorem hasDistinctNames_of_mem {items : List Value} (h : itemsHaveDistinctNames items = true) :
    ∀ item ∈ items, item.hasDistinctNames = true := by
  induction items with
  | nil => simp
  | cons item rest ih =>
    simp only [itemsHaveDistinctNames, Bool.and_eq_true] at h
    simpa [h.1] using ih h.2

theorem hasDistinctNames_of_get? {entries : Entries} {name : String} {v : Value}
    (h : entriesHaveDistinctNames entries = true) (hget : entries.get? name = some v) :
    v.hasDistinctNames = true := by
  induction entries with
  | nil => cases hget
  | cons entry rest ih =>
    obtain ⟨key, value⟩ := entry
    simp only [entriesHaveDistinctNames, Bool.and_eq_true] at h
    simp only [Entries.get?] at hget
    split at hget
    · cases hget
      exact h.1.2
    · exact ih h.2 hget

theorem hasDistinctNames_step? {v w : Value} {s : Step} (h : v.hasDistinctNames = true)
    (hs : v.step? s = some w) : w.hasDistinctNames = true := by
  cases s with
  | key name =>
    obtain ⟨entries, hentries, hget⟩ := Option.bind_eq_some_iff.1 hs
    cases v <;> cases hentries
    simp only [hasDistinctNames] at h
    exact hasDistinctNames_of_get? h hget
  | index i =>
    simp only [step?] at hs
    split at hs
    · cases hs
    · obtain ⟨items, hitems, hget⟩ := Option.bind_eq_some_iff.1 hs
      cases v <;> cases hitems <;> simp only [hasDistinctNames] at h
      all_goals exact hasDistinctNames_of_mem h w (List.mem_of_getElem? hget)

theorem hasDistinctNames_at? {v w : Value} {steps : List Step} (h : v.hasDistinctNames = true)
    (hat : v.at? steps = some w) : w.hasDistinctNames = true := by
  induction steps generalizing v with
  | nil =>
    cases hat
    exact h
  | cons s rest ih =>
    obtain ⟨u, hu, hrest⟩ := Option.bind_eq_some_iff.1 hat
    exact ih (hasDistinctNames_step? h hu) hrest

end Value

namespace Entries

theorem has_of_mem {entries : Entries} {name : String} {v : Value}
    (h : (Value.str name, v) ∈ entries) : entries.has name = true := by
  induction entries with
  | nil => cases h
  | cons entry rest ih =>
    obtain ⟨key, value⟩ := entry
    simp only [has, get?]
    split
    · rfl
    · rename_i hkey
      rcases List.mem_cons.1 h with h | h
      · cases h
        simp [Value.isText] at hkey
      · exact ih h

/-- With distinct names, every entry under a string is the one that is looked up. -/
theorem get?_of_mem {entries : Entries} {name : String} {v : Value}
    (hdistinct : Value.entriesHaveDistinctNames entries = true)
    (h : (Value.str name, v) ∈ entries) : entries.get? name = some v := by
  induction entries with
  | nil => cases h
  | cons entry rest ih =>
    obtain ⟨key, value⟩ := entry
    simp only [Value.entriesHaveDistinctNames, Bool.and_eq_true, Bool.not_eq_true'] at hdistinct
    obtain ⟨⟨hkey, -⟩, hrest⟩ := hdistinct
    simp only [get?]
    rcases List.mem_cons.1 h with hhead | hmem
    · cases hhead
      simp [Value.isText]
    · split
      · rename_i hname
        -- The name would stand both here and in the rest.
        cases key <;> simp only [Value.isText, Bool.false_eq_true, beq_iff_eq] at hname
        subst hname
        exact absurd (has_of_mem hmem) (by simpa [Value.text?] using hkey)
      · exact ih hrest hmem

/-- With distinct names, the strings in front of the entries differ. -/
theorem names_nodup {entries : Entries} (h : Value.entriesHaveDistinctNames entries = true) :
    (entries.filterMap fun entry => entry.1.text?).Nodup := by
  induction entries with
  | nil => simp
  | cons entry rest ih =>
    obtain ⟨key, value⟩ := entry
    simp only [Value.entriesHaveDistinctNames, Bool.and_eq_true, Bool.not_eq_true'] at h
    obtain ⟨⟨hkey, -⟩, hrest⟩ := h
    rw [List.filterMap_cons]
    cases key with
    | str name =>
      refine List.nodup_cons.2 ⟨fun hmem => ?_, ih hrest⟩
      obtain ⟨⟨k, v⟩, hentry, hk⟩ := List.mem_filterMap.1 hmem
      cases k <;> cases hk
      exact absurd (has_of_mem hentry) (by simpa [Value.text?] using hkey)
    | _ => exact ih hrest

end Entries

/-! ## Paths into a value -/

namespace Path

/-- A path from the root whose steps lead to a value. -/
structure LeadsTo (whole : Value) (path : Path) (v : Value) : Prop where
  base : path.base = ""
  value : whole.at? path.steps = some v

/-- A path from the root that can be followed, except perhaps for its last step. -/
structure IsNear (whole : Value) (path : Path) : Prop where
  base : path.base = ""
  value : (whole.at? path.steps.dropLast).isSome = true

/-- A path to the entries of an object; null counts as an object without entries. -/
def Holds (whole : Value) (path : Path) (entries : Entries) : Prop :=
  path.LeadsTo whole (.map entries) ∨ path.LeadsTo whole .null ∧ entries = []

variable {whole v : Value} {path : Path}

theorem leadsTo_root (whole : Value) : root.LeadsTo whole whole := ⟨rfl, rfl⟩

namespace LeadsTo

theorem near (h : path.LeadsTo whole v) : path.IsNear whole := by
  refine ⟨h.base, ?_⟩
  have hvalue := h.value
  rcases List.eq_nil_or_concat path.steps with hsteps | ⟨front, last, hsteps⟩
  · simp [hsteps, Value.at?]
  · rw [hsteps] at hvalue ⊢
    rw [List.concat_eq_append, Value.at?_append] at hvalue
    obtain ⟨w, hw, -⟩ := Option.bind_eq_some_iff.1 hvalue
    simp [hw]

theorem key_near (h : path.LeadsTo whole v) (name : String) : (path.key name).IsNear whole :=
  ⟨h.base, by simp [key, h.value]⟩

theorem key {entries : Entries} {name : String} {w : Value} (h : path.LeadsTo whole (.map entries))
    (hget : entries.get? name = some w) : (path.key name).LeadsTo whole w :=
  ⟨h.base, (Value.at?_snoc h.value _).trans hget⟩

theorem index {items : List Value} {i : Nat} {w : Value} (h : path.LeadsTo whole v)
    (hitems : v.items? = some items) (hget : items[i]? = some w) :
    (path.index i).LeadsTo whole w := by
  refine ⟨h.base, (Value.at?_snoc h.value _).trans ?_⟩
  have hi : ¬ (i : Int) < 0 := by omega
  simp [Value.step?, hi, hitems, hget]

end LeadsTo

namespace Holds

variable {entries : Entries}

theorem near (h : path.Holds whole entries) : path.IsNear whole := by
  rcases h with h | ⟨h, -⟩ <;> exact h.near

theorem key_near (h : path.Holds whole entries) (name : String) : (path.key name).IsNear whole := by
  rcases h with h | ⟨h, -⟩ <;> exact h.key_near name

/-- Looking up a name is following it. -/
theorem at?_key (h : path.Holds whole entries) (name : String) :
    whole.at? (path.key name).steps = entries.get? name := by
  rcases h with h | ⟨h, rfl⟩ <;> exact Value.at?_snoc h.value _

theorem base (h : path.Holds whole entries) : path.base = "" := by
  rcases h with h | ⟨h, -⟩ <;> exact h.base

theorem get {name : String} (h : path.Holds whole entries) (hget : entries.get? name = some v) :
    (path.key name).LeadsTo whole v :=
  ⟨h.base, (h.at?_key name).trans hget⟩

/-- A field that is not null is an entry. -/
theorem field {name : String} (h : path.Holds whole entries) (hv : entries.field name ≠ .null) :
    (path.key name).LeadsTo whole (entries.field name) := by
  cases hget : entries.get? name with
  | none => exact absurd (by rw [Entries.field, hget]; rfl) hv
  | some w =>
    have hfield : entries.field name = w := by rw [Entries.field, hget]; rfl
    exact hfield ▸ h.get hget

end Holds

end Path

/-! ## Checks that point into a value -/

/-- Whether a cause is one that reading reports: rules and names are looked at only when code is
written. -/
def Cause.isOfReading : Cause → Bool
  | malformed _ => true
  | conflict _ _ => false
  | unsupportedRule _ _ => false
  | unsupported _ => true
  | tooDeep _ => true

/-- A check that reports errors of reading near parts of a value only, and whose results satisfy
`Q`. -/
structure Checked.PointsInto {α : Type} (whole : Value) (Q : α → Prop) (c : Checked α) : Prop where
  error : ∀ e, c = .error e → e.path.IsNear whole ∧ e.cause.isOfReading = true
  ok : ∀ a, c = .ok a → Q a

namespace Checked.PointsInto

variable {α β : Type} {whole : Value} {Q : α → Prop} {R : β → Prop} {path : Path}

theorem of_ok {a : α} (h : Q a) : PointsInto whole Q (.ok a) :=
  ⟨fun _ he => (by cases he), fun b hb => by cases hb; exact h⟩

theorem of_pure {a : α} (h : Q a) : PointsInto whole Q (pure a) := of_ok h

theorem of_malformed (m : Malformation) (h : path.IsNear whole) :
    PointsInto whole Q (malformed m path) :=
  ⟨fun e he => by cases he; exact ⟨h, rfl⟩, fun _ ha => by cases ha⟩

theorem of_unsupported (feature : Feature) (h : path.IsNear whole) :
    PointsInto whole Q (unsupported feature path) :=
  ⟨fun e he => by cases he; exact ⟨h, rfl⟩, fun _ ha => by cases ha⟩

theorem mono {c : Checked α} {Q' : α → Prop} (h : PointsInto whole Q c) (hQ : ∀ a, Q a → Q' a) :
    PointsInto whole Q' c :=
  ⟨h.error, fun a ha => hQ a (h.ok a ha)⟩

/-- A result is what the check gives. -/
theorem self {c : Checked α} (h : PointsInto whole Q c) : PointsInto whole (fun a => c = .ok a) c :=
  ⟨h.error, fun _ ha => ha⟩

theorem bind {c : Checked α} {f : α → Checked β} (hc : PointsInto whole Q c)
    (hf : ∀ a, Q a → PointsInto whole R (f a)) : PointsInto whole R (c >>= f) := by
  cases c with
  | error e => exact ⟨fun e' he => by cases he; exact hc.error e rfl, fun _ hb => by cases hb⟩
  | ok a => exact hf a (hc.ok a rfl)

/-- Steps along a list, one by one. -/
theorem mapM {γ : Type} {f : γ → Checked α} {l : List γ} {P : γ → α → Prop}
    (h : ∀ c ∈ l, PointsInto whole (P c) (f c)) :
    PointsInto whole (fun as => List.Forall₂ P l as) (l.mapM f) := by
  induction l with
  | nil => exact of_pure .nil
  | cons c l ih =>
    rw [List.mapM_cons]
    refine (h c List.mem_cons_self).bind fun a ha => ?_
    refine (ih fun c hc => h c (List.mem_cons_of_mem _ hc)).bind fun as has => ?_
    exact of_pure (.cons ha has)

/-- Reading the items of a sequence gives as many results, each at the index of its item. -/
theorem readEach {read : Value → Path → Checked α} {items : List Value} {P : Nat → α → Prop}
    (h : ∀ i item, items[i]? = some item → PointsInto whole (P i) (read item (path.index i))) :
    PointsInto whole (fun as => ∀ i a, as[i]? = some a → P i a) (readEach read items path) := by
  have hall : ∀ pair ∈ items.zipIdx,
      PointsInto whole (P pair.2) (read pair.1 (path.index pair.2)) := by
    rintro ⟨item, i⟩ hmem
    exact h i item (List.mem_zipIdx_iff_getElem?.1 hmem)
  refine (mapM (P := fun pair a => P pair.2 a) hall).mono fun as has i a ha => ?_
  obtain ⟨hlength, hat⟩ := List.forall₂_iff_get.1 has
  obtain ⟨hi, rfl⟩ := List.getElem?_eq_some_iff.1 ha
  simpa using hat i (hlength ▸ hi) hi

end Checked.PointsInto

/-! ## Entries, items and literals -/

open Checked

section

variable {whole : Value} {path : Path} {raw : Value}

theorem asEntries_points (h : path.LeadsTo whole raw) :
    PointsInto whole (path.Holds whole) (raw.asEntries path) := by
  unfold Value.asEntries
  split
  · exact .of_ok (.inr ⟨h, rfl⟩)
  · exact .of_ok (.inl h)
  · exact .of_malformed _ h.near

theorem asItems_points (h : path.LeadsTo whole raw) :
    PointsInto whole
      (fun items => ∀ (i : Nat) item, items[i]? = some item → (path.index i).LeadsTo whole item)
      (raw.asItems path) := by
  unfold Value.asItems
  split
  · rename_i items hitems
    exact .of_ok fun i item hi => h.index hitems hi
  · exact .of_malformed _ h.near

theorem entries_leadTo (hwhole : whole.hasDistinctNames = true) {entries : Entries}
    (h : path.LeadsTo whole (.map entries)) :
    ∀ name v, (Value.str name, v) ∈ entries → (path.key name).LeadsTo whole v := by
  intro name v hmem
  have hdistinct := Value.hasDistinctNames_at? hwhole h.value
  rw [Value.hasDistinctNames] at hdistinct
  exact h.key (Entries.get?_of_mem hdistinct hmem)

mutual
theorem checkLiteral_points (hwhole : whole.hasDistinctNames = true) {nested : Bool} :
    ∀ {v : Value} {path : Path}, path.LeadsTo whole v → PointsInto whole (fun _ => True) (checkLiteral nested v path)
  | .null, _, _ => .of_ok trivial
  | .bool _, _, _ => .of_ok trivial
  | .int _, _, _ => .of_ok trivial
  | .str _, _, _ => .of_ok trivial
  | .bytes _, _, h => .of_malformed _ h.near
  | .float x, path, h => by
    simp only [checkLiteral]
    split
    · exact .of_ok trivial
    · exact .of_malformed _ h.near
  | .decimal d, path, h => by
    simp only [checkLiteral]
    split
    · exact .of_ok trivial
    · exact .of_malformed _ h.near
  | .list items, path, h => by
    simp only [checkLiteral]
    split
    · exact checkLiterals_points hwhole fun j item hj => by simpa using h.index rfl hj
    · exact .of_malformed _ h.near
  | .tuple items, path, h => by
    simp only [checkLiteral]
    split
    · exact checkLiterals_points hwhole fun j item hj => by simpa using h.index rfl hj
    · exact .of_malformed _ h.near
  | .map entries, path, h => by
    simp only [checkLiteral]
    split
    · exact .of_unsupported _ h.near
    · split
      · exact checkLiteralEntries_points hwhole h.near (entries_leadTo hwhole h)
      · exact .of_malformed _ h.near
/-- The items that are left are the ones from index `i` on. -/
theorem checkLiterals_points (hwhole : whole.hasDistinctNames = true) {nested : Bool} :
    ∀ {items : List Value} {path : Path} {i : Nat},
    (∀ (j : Nat) item, items[j]? = some item → (path.index (i + j)).LeadsTo whole item) →
    PointsInto whole (fun _ => True) (checkLiterals nested items path i)
  | [], _, _, _ => .of_ok trivial
  | item :: rest, path, i, h => by
    simp only [checkLiterals]
    refine (checkLiteral_points hwhole (h 0 item rfl)).bind fun _ _ => ?_
    exact checkLiterals_points hwhole fun j item hj => by
      rw [Nat.add_right_comm, Nat.add_assoc]
      exact h (j + 1) item hj
theorem checkLiteralEntries_points (hwhole : whole.hasDistinctNames = true) {nested : Bool} :
    ∀ {entries : List (Value × Value)} {path : Path}, path.IsNear whole →
    (∀ name v, (Value.str name, v) ∈ entries → (path.key name).LeadsTo whole v) →
    PointsInto whole (fun _ => True) (checkLiteralEntries nested entries path)
  | [], _, _, _ => .of_ok trivial
  | (key, value) :: rest, path, hpath, h => by
    unfold checkLiteralEntries
    split
    · refine (checkLiteral_points hwhole (h _ value List.mem_cons_self)).bind fun _ _ => ?_
      exact checkLiteralEntries_points hwhole hpath fun name v hmem =>
        h name v (List.mem_cons_of_mem _ hmem)
    · exact .of_malformed _ hpath
end

theorem readLiterals_points (hwhole : whole.hasDistinctNames = true)
    (h : raw ≠ .null → path.LeadsTo whole raw) :
    PointsInto whole (fun _ => True) (readLiterals raw path) := by
  unfold readLiterals
  split
  · exact .of_ok trivial
  · rename_i hnull
    refine (asItems_points (h hnull)).bind fun items hitems => ?_
    refine (checkLiterals_points hwhole fun j item hj => ?_).bind fun _ _ => .of_pure trivial
    simpa using hitems j item hj

end

end Schemata
