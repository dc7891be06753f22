import Mathlib.Data.List.Forall2
import Schemata.Proofs.PathErasure
import Schemata.Proofs.Reading
/-!
Reading without paths.

Readers use the path they are given in errors and in the paths of the nodes they make, and nowhere
else. An outcome without paths keeps the cause of an error and what is left of a result once its paths
are erased. Here are the readers that read no nodes: their outcomes without paths do not depend on the
path at all.

Component: the readers of flags, rules, references and lists of values. Main results:
- `withoutPaths_readFrom` — items that are read alike are read alike in sequence;
- `Rule.read_steady` — a rule is read without regard to its path.
-/

namespace Schemata

/-! ## Outcomes without paths -/

namespace Checked

/-- An outcome without paths: the cause of an error, or what `erase` leaves of a result. -/
def withoutPaths {α γ : Type} (erase : α → γ) : Checked α → Except Cause γ
  | .ok a => .ok (erase a)
  | .error e => .error e.cause

variable {α β γ δ : Type} {erase : α → γ} {erase' : β → δ}

theorem withoutPaths_ok {a a' : α} (h : erase a = erase a') :
    withoutPaths erase (.ok a) = withoutPaths erase (.ok a') := congrArg Except.ok h

theorem withoutPaths_malformed (m : Malformation) (path path' : Path) :
    withoutPaths erase (malformed m path) = withoutPaths erase (malformed m path') := rfl

theorem withoutPaths_bind_of {x y : Checked α} {f g : α → Checked β}
    (h : x.withoutPaths erase = y.withoutPaths erase)
    (hfg : ∀ a b, x = .ok a → y = .ok b → erase a = erase b →
      (f a).withoutPaths erase' = (g b).withoutPaths erase') :
    (x >>= f).withoutPaths erase' = (y >>= g).withoutPaths erase' := by
  cases x with
  | ok a =>
    cases y with
    | ok b => exact hfg a b rfl rfl (Except.ok.inj h)
    | error e => cases h
  | error e =>
    cases y with
    | ok b => cases h
    | error e' => exact congrArg Except.error (Except.error.inj h)

theorem withoutPaths_bind {x y : Checked α} {f g : α → Checked β}
    (h : x.withoutPaths erase = y.withoutPaths erase)
    (hfg : ∀ a b, erase a = erase b → (f a).withoutPaths erase' = (g b).withoutPaths erase') :
    (x >>= f).withoutPaths erase' = (y >>= g).withoutPaths erase' :=
  withoutPaths_bind_of h fun a b _ _ hab => hfg a b hab

/-- If the first steps have the same result, only what comes next is compared. -/
theorem withoutPaths_bind_id {x y : Checked α} {f g : α → Checked β}
    (h : x.withoutPaths id = y.withoutPaths id)
    (hfg : ∀ a, (f a).withoutPaths erase' = (g a).withoutPaths erase') :
    (x >>= f).withoutPaths erase' = (y >>= g).withoutPaths erase' :=
  withoutPaths_bind h fun _ b hab => (congrArg (fun a => (f a).withoutPaths erase') hab).trans (hfg b)

theorem withoutPaths_mapM {ι : Type} {f g : ι → Checked α} {l l' : List ι}
    (h : List.Forall₂ (fun i j => (f i).withoutPaths erase = (g j).withoutPaths erase) l l') :
    (l.mapM f).withoutPaths (List.map erase) = (l'.mapM g).withoutPaths (List.map erase) := by
  induction h with
  | nil => rfl
  | cons hhead _ ih =>
    simp only [List.mapM_cons]
    refine withoutPaths_bind hhead fun a b hab => withoutPaths_bind ih fun as bs habs => ?_
    exact withoutPaths_ok (by simp only [List.map_cons, hab, habs])

theorem forall₂_zipIdx {R : Value → Value → Prop} {l l' : List Value} (h : List.Forall₂ R l l')
    (i j : Nat) : List.Forall₂ (fun a b => R a.1 b.1) (l.zipIdx i) (l'.zipIdx j) := by
  induction h generalizing i j with
  | nil => exact .nil
  | cons hhead _ ih => exact .cons hhead (ih _ _)

/-- Items that are read alike are read alike in sequence, wherever the two sequences start. -/
theorem withoutPaths_readFrom {read read' : Value → Path → Checked α} {items items' : List Value}
    (h : List.Forall₂ (fun v v' => ∀ path path',
      (read v path).withoutPaths erase = (read' v' path').withoutPaths erase) items items')
    (path path' : Path) (i j : Nat) :
    ((items.zipIdx i).mapM fun (item, k) => read item (path.index k)).withoutPaths (List.map erase) =
      ((items'.zipIdx j).mapM fun (item, k) => read' item (path'.index k)).withoutPaths
        (List.map erase) :=
  withoutPaths_mapM ((forall₂_zipIdx h i j).imp fun _ _ hread => hread _ _)

theorem withoutPaths_readEach {read read' : Value → Path → Checked α} {items items' : List Value}
    (h : List.Forall₂ (fun v v' => ∀ path path',
      (read v path).withoutPaths erase = (read' v' path').withoutPaths erase) items items')
    (path path' : Path) : (readEach read items path).withoutPaths (List.map erase) =
      (readEach read' items' path').withoutPaths (List.map erase) :=
  withoutPaths_readFrom h path path' 0 0

theorem withoutPaths_readEach_id {read : Value → Path → Checked α} {items items' : List Value}
    (h : List.Forall₂ (fun v v' => ∀ path path',
      (read v path).withoutPaths id = (read v' path').withoutPaths id) items items')
    (path path' : Path) : (readEach read items path).withoutPaths id =
      (readEach read items' path').withoutPaths id := by
  simpa only [List.map_id_fun] using withoutPaths_readEach h path path'

theorem readEach_singleton (read : Value → Path → Checked α) (item : Value) (path : Path) :
    readEach read [item] path = (do
      let a ← read item (path.index 0)
      return [a]) := by
  simp [readEach]

/-- Only the errors of a reader depend on the path. -/
def Steady (reader : Path → Checked α) : Prop :=
  ∀ path path', (reader path).withoutPaths id = (reader path').withoutPaths id

end Checked

open Checked

/-! ## Values -/

namespace Entries

theorem field_congr {raw raw' : Entries} {name : String} (h : raw.get? name = raw'.get? name) :
    raw.field name = raw'.field name := by
  rw [field, field, h]

/-- Two objects have the same values, except under some keys. -/
def SameBeside (keys : List String) (raw raw' : Entries) : Prop :=
  ∀ name, name ∉ keys → raw.get? name = raw'.get? name

theorem SameBeside.field {keys : List String} {raw raw' : Entries} (h : SameBeside keys raw raw')
    {name : String} (hname : name ∉ keys) : raw.field name = raw'.field name :=
  field_congr (h name hname)

end Entries

namespace Value

/-- The entries of an object; null counts as an object without entries. -/
def object? : Value → Option Entries
  | .null => some []
  | .map entries => some entries
  | _ => none

/-- The items of a list; null counts as the empty list. -/
def listed? : Value → Option (List Value)
  | .null => some []
  | raw => raw.items?

theorem asEntries_of_object? {raw : Value} {entries : Entries} (h : raw.object? = some entries)
    (path : Path) : raw.asEntries path = .ok entries := by
  cases raw <;> cases h <;> rfl

theorem asEntries_steady (raw : Value) : Steady raw.asEntries := by
  intro path path'
  cases raw <;> rfl

theorem asItems_steady (raw : Value) : Steady raw.asItems := by
  intro path path'
  cases raw <;> rfl

end Value

mutual
theorem checkLiteral_steady (nested : Bool) : ∀ v : Value, Steady (checkLiteral nested v)
  | .null, _, _ => rfl
  | .bool _, _, _ => rfl
  | .int _, _, _ => rfl
  | .str _, _, _ => rfl
  | .float x, path, path' => by
    simp only [checkLiteral]
    split <;> rfl
  | .decimal d, path, path' => by
    simp only [checkLiteral]
    split <;> rfl
  | .bytes _, _, _ => rfl
  | .list items, path, path' => by
    simp only [checkLiteral]
    split
    · exact checkLiterals_steady nested items path path' 0 0
    · rfl
  | .tuple items, path, path' => by
    simp only [checkLiteral]
    split
    · exact checkLiterals_steady nested items path path' 0 0
    · rfl
  | .map entries, path, path' => by
    simp only [checkLiteral]
    split
    · rfl
    · split
      · exact checkLiteralEntries_steady nested entries path path'
      · rfl
theorem checkLiterals_steady (nested : Bool) : ∀ (items : List Value) (path path' : Path) (i j : Nat),
    (checkLiterals nested items path i).withoutPaths id =
      (checkLiterals nested items path' j).withoutPaths id
  | [], _, _, _, _ => rfl
  | item :: rest, path, path', i, j => by
    simp only [checkLiterals]
    refine withoutPaths_bind_id (checkLiteral_steady nested item _ _) fun _ => ?_
    exact checkLiterals_steady nested rest path path' _ _
theorem checkLiteralEntries_steady (nested : Bool) :
    ∀ entries : List (Value × Value), Steady (checkLiteralEntries nested entries)
  | [], _, _ => rfl
  | (.str name, value) :: rest, path, path' => by
    simp only [checkLiteralEntries]
    refine withoutPaths_bind_id (checkLiteral_steady nested value _ _) fun _ => ?_
    exact checkLiteralEntries_steady nested rest path path'
  | (.null, _) :: _, _, _ => rfl
  | (.bool _, _) :: _, _, _ => rfl
  | (.int _, _) :: _, _, _ => rfl
  | (.float _, _) :: _, _, _ => rfl
  | (.decimal _, _) :: _, _, _ => rfl
  | (.bytes _, _) :: _, _, _ => rfl
  | (.list _, _) :: _, _, _ => rfl
  | (.tuple _, _) :: _, _, _ => rfl
  | (.map _, _) :: _, _, _ => rfl
end

theorem checkLiterals_append (nested : Bool) (front back : List Value) (path path' path'' : Path)
    (i j k : Nat) : (checkLiterals nested (front ++ back) path i).withoutPaths id =
      (do checkLiterals nested front path' j
          checkLiterals nested back path'' k).withoutPaths id := by
  induction front generalizing i j with
  | nil => exact checkLiterals_steady nested back path path'' i k
  | cons item rest ih =>
    simp only [List.cons_append, checkLiterals, bind_assoc]
    exact withoutPaths_bind_id (checkLiteral_steady nested item _ _) fun _ => ih _ _

theorem readLiterals_of_listed? {raw : Value} {items : List Value} (h : raw.listed? = some items)
    (path : Path) : readLiterals raw path = (do
      checkLiterals false items path 0
      return items) := by
  cases raw <;> cases h <;> rfl

theorem readLiterals_steady (raw : Value) : Steady (readLiterals raw) := by
  intro path path'
  unfold readLiterals
  split
  · rfl
  · refine withoutPaths_bind_id (raw.asItems_steady _ _) fun items => ?_
    exact withoutPaths_bind_id (checkLiterals_steady _ _ _ _ _ _) fun _ => rfl

/-- A list read in two parts, one after the other, is the list of both. -/
theorem readLiterals_append {v w u : Value} {front back : List Value} (hv : v.listed? = some front)
    (hw : w.listed? = some back) (hu : u.listed? = some (front ++ back)) (path path' path'' : Path) :
    (do let front ← readLiterals v path
        let back ← readLiterals w path'
        return front ++ back : Checked (List Value)).withoutPaths id =
      (readLiterals u path'').withoutPaths id := by
  simp only [readLiterals_of_listed? hv, readLiterals_of_listed? hw, readLiterals_of_listed? hu,
    bind_assoc, pure_bind]
  have happend := checkLiterals_append false front back path'' path path' 0 0 0
  rw [← bind_assoc]
  exact withoutPaths_bind_id happend.symm fun _ => rfl

/-! ## Flags and rules -/

namespace Flags

theorem readPresence_steady (raw : Value) : Steady (readPresence raw) := by
  intro path path'
  unfold readPresence
  split
  · rfl
  · split <;> rfl

theorem readDefault_steady (raw : Option Value) : Steady (readDefault raw) := by
  intro path path'
  unfold readDefault
  split
  · rfl
  · exact withoutPaths_bind_id (checkLiteral_steady _ _ _ _) fun _ => rfl

theorem readBoolean_steady (raw : Entries) (name : String) : Steady (readBoolean raw name) := by
  intro path path'
  unfold readBoolean
  split <;> rfl

theorem readText_steady (raw : Entries) (name : String) : Steady (readText raw name) := by
  intro path path'
  unfold readText
  split <;> rfl

theorem checkMatchMode_steady (kind : Kind) (raw : Value) : Steady (checkMatchMode kind raw) := by
  intro path path'
  unfold checkMatchMode
  split <;> rfl

/-- Whether a value is left out of the result. -/
def readStrip (raw : Entries) (path : Path) : Checked (Option Bool) := do
  let strip ← readBoolean raw "strip" path
  return if (raw.field "result").isText "strip" then some true else strip

theorem readStrip_steady (raw : Entries) : Steady (readStrip raw) := fun _ _ =>
  withoutPaths_bind_id (readBoolean_steady _ _ _ _) fun _ => rfl

/-- The flags that are read on their own. -/
def plainNames : List String := ["presence", "default", "unknown", "match", "label", "description"]

/-- Two objects of flags that say the same, apart from flags that are not part of the node. -/
def Like (raw raw' : Entries) : Prop :=
  (∀ name ∈ plainNames, raw.get? name = raw'.get? name) ∧
    ∀ path path', (readStrip raw path).withoutPaths id = (readStrip raw' path').withoutPaths id

theorem read_like {raw raw' : Entries} (h : Like raw raw') (kind : Kind) (path path' : Path) :
    (read kind raw path).withoutPaths id = (read kind raw' path').withoutPaths id := by
  obtain ⟨hplain, hstrip⟩ := h
  have hfield : ∀ name ∈ plainNames, raw.field name = raw'.field name := by
    intro name hname
    rw [Entries.field, Entries.field, hplain name hname]
  have hboolean : readBoolean raw "unknown" path = readBoolean raw' "unknown" path := by
    rw [readBoolean, readBoolean, hfield "unknown" (by decide)]
  have htext : ∀ name ∈ plainNames, readText raw name path = readText raw' name path := by
    intro name hname
    rw [readText, readText, hfield name hname]
  have hread : ∀ (raw : Entries) (path : Path), read kind raw path = (do
      let presence ← readPresence (raw.field "presence") (path.key "presence")
      let default ← readDefault (raw.get? "default") (path.key "default")
      let strip ← readStrip raw path
      let unknown ← readBoolean raw "unknown" path
      checkMatchMode kind (raw.field "match") (path.key "match")
      let label ← readText raw "label" path
      let description ← readText raw "description" path
      return { presence, default, label, description, strip, unknown }) := by
    intro raw path
    simp only [read, readStrip, bind_assoc, pure_bind]
  rw [hread, hread, hfield "presence" (by decide), hfield "match" (by decide),
    hplain "default" (by decide), hboolean, htext "label" (by decide), htext "description" (by decide)]
  refine withoutPaths_bind_id (readPresence_steady _ _ _) fun presence => ?_
  refine withoutPaths_bind_id (readDefault_steady _ _ _) fun default => ?_
  refine withoutPaths_bind_id (hstrip _ _) fun strip => ?_
  refine withoutPaths_bind_id (readBoolean_steady _ _ _ _) fun unknown => ?_
  refine withoutPaths_bind_id (checkMatchMode_steady _ _ _ _) fun _ => ?_
  refine withoutPaths_bind_id (readText_steady _ _ _ _) fun label => ?_
  exact withoutPaths_bind_id (readText_steady _ _ _ _) fun description => rfl

theorem readFlags_like {raw raw' : Entries} (h : Like raw raw') (kind : Kind) (path path' : Path) :
    (Node.readFlags raw kind path).withoutPaths id =
      (Node.readFlags raw' kind path').withoutPaths id :=
  withoutPaths_bind_id (read_like h kind path path') fun _ => rfl

theorem Like.refl (raw : Entries) : Like raw raw := ⟨fun _ _ => rfl, readStrip_steady raw⟩

theorem Like.of_sameBeside {keys : List String} {raw raw' : Entries}
    (h : Entries.SameBeside keys raw raw')
    (hkeys : ∀ name ∈ "strip" :: "result" :: plainNames, name ∉ keys) : Like raw raw' := by
  refine ⟨fun name hname => h name (hkeys name (by simp [hname])), fun path path' => ?_⟩
  simp only [readStrip, readBoolean, h.field (hkeys "strip" (by simp)),
    h.field (hkeys "result" (by simp))]
  exact readStrip_steady raw' path path'

end Flags

namespace Rule

theorem readArguments_steady (raw : Value) : Steady (readArguments raw) := by
  intro path path'
  cases raw <;> rfl

theorem read_steady (raw : Value) : Steady (read raw) := by
  intro path path'
  unfold read
  split
  · split
    · exact withoutPaths_bind_id (readArguments_steady _ _ _) fun _ => rfl
    · rfl
  · rfl

theorem readAll_of_listed? {raw : Value} {items : List Value} (h : raw.listed? = some items)
    (path : Path) : readAll raw path = readEach read items path := by
  cases raw <;> cases h <;> rfl

theorem readAll_steady (raw : Value) : Steady (readAll raw) := by
  intro path path'
  unfold readAll
  split
  · rfl
  · refine withoutPaths_bind_id (raw.asItems_steady _ _) fun items => ?_
    exact withoutPaths_readEach_id (List.forall₂_same.2 fun item _ => read_steady item) path path'

end Rule

/-! ## References and names -/

namespace Reference

theorem parse_steady (key : String) : Steady (parse key) := by
  intro path path'
  simp only [parse]
  split <;> rfl

theorem readSegments_steady (raw : Value) : Steady (readSegments raw) := by
  intro path path'
  unfold readSegments
  split
  · rfl
  · split <;> rfl

theorem readAncestor_steady (raw : Option Value) : Steady (readAncestor raw) := by
  intro path path'
  unfold readAncestor
  split <;> rfl

theorem readObject_steady (raw : Entries) : Steady (readObject raw) := by
  intro path path'
  unfold readObject
  refine withoutPaths_bind_id (readSegments_steady _ _ _) fun segments => ?_
  refine withoutPaths_bind_id (readAncestor_steady _ _ _) fun (scope, ancestor) => ?_
  simp only
  split <;> rfl

theorem read_steady (raw : Value) : Steady (read raw) := by
  intro path path'
  unfold read
  split
  · exact parse_steady _ _ _
  · refine withoutPaths_bind_id (raw.asEntries_steady _ _) fun entries => ?_
    exact readObject_steady _ _ _

end Reference

namespace Node

theorem readName_steady (raw : Value) : Steady (readName raw) := by
  intro path path'
  unfold readName
  split
  · split <;> rfl
  · rfl

/-- The name found in some entries does not depend on their paths. -/
theorem lastName_like {metas metas' : List (Entries × Path)}
    (h : metas.map Prod.fst = metas'.map Prod.fst) (name : Option String) :
    (lastName metas name).withoutPaths id = (lastName metas' name).withoutPaths id := by
  induction metas generalizing metas' name with
  | nil =>
    obtain rfl := List.map_eq_nil_iff.1 h.symm
    rfl
  | cons head rest ih =>
    obtain ⟨entries, path⟩ := head
    cases metas' with
    | nil => cases h
    | cons head' rest' =>
      obtain ⟨entries', path'⟩ := head'
      simp only [List.map_cons, List.cons.injEq] at h
      obtain ⟨rfl, hrest⟩ := h
      simp only [lastName]
      split
      · exact ih hrest name
      · exact withoutPaths_bind_id (readName_steady _ _ _) fun given => ih hrest (some given)

end Node

end Schemata
