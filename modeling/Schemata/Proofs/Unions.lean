import Schemata.Proofs.Pieces
import Schemata.Proofs.WellFormed
/-!
No union is degenerate.

A union with one member is that member, and a union with none would accept nothing. Code is joined at
five places: for listed values, for values that are accepted besides, for items, for members, and for
the branches of conditionals. Something is there to be joined at each of them. Members are the place
where that takes an argument: alternatives may have nothing but conditional members, but such a node
is never written itself, and merging a branch into a property keeps the members of both. All this holds
for any rule table; the unions in the code are the compiler's own as far as the emitters of the table
make none (`compile_unions`).

Component: the unions in the code, `Code.union`. Main results:
- `Joins.ne_nil` — whatever is joined has something in it;
- `write_isProper` — no node that is reached has a degenerate union in its code;
- `compile_unions` — neither has a compilation.
-/

namespace Schemata

def Code.IsProper (code : Code) : Prop :=
  ∀ args, code = .call "z.union" args → ∃ members, args = [.array members] ∧ 2 ≤ members.length

theorem Code.isProper_lenient : Lenient IsProper where
  plain hplain args h := by
    rw [h] at hplain
    cases hplain
  scalar _ _ args h := by cases h
  filled _ args h := by cases h
  union hlength args h := by
    cases h
    exact ⟨_, rfl, hlength⟩

/-! ## Alternatives that are written have members -/

/-- Alternatives have a plain member or a conditional one. -/
def Node.HasMembers (n : Node) : Prop :=
  n.kind = .alternatives → n.members ≠ [] ∨ n.guards ≠ []

/-- The emitters of a table are forms, or make no degenerate union of code that has none. -/
def Rulebook.KeepsUnions {ε : Type} [Emitter ε] (table : Rulebook ε) : Prop :=
  ∀ kind name emitter, table.get? kind name = some emitter → (∃ form, emitter = Emitter.form form) ∨
    ∀ target rule site code, target.All Code.IsProper →
      Emitter.emit emitter target rule site = .ok code → code.All Code.IsProper

namespace Writing

variable {ε : Type} [Emitter ε] {setting : Setting ε} {levels l : Nat} {root n : Node}

theorem hasMembers_guardBase {k base : Node} (h : guardBase k = some base) : base.HasMembers := by
  unfold guardBase at h
  split at h
  · cases h
  · rename_i hplain
    cases h
    intro hkind
    exact .inl fun hnone => hplain ⟨hkind, by rw [hnone]; rfl⟩

/-- If a merged node has alternatives, then so has the base or the branch. -/
theorem hasMembers_merge {base branch n : Node} (h : base.merge branch = .ok n)
    (hguards : base.guards = []) (hbase : base.HasMembers) (hbranch : branch.HasMembers) :
    n.HasMembers := by
  rcases Node.merge_ok h with ⟨-, rfl⟩ | ⟨-, hplain, kind, hkind, rfl⟩
  · intro hforbidden
    cases hforbidden
  · intro halternatives
    have hfrom : base.kind = .alternatives ∨ branch.kind = .alternatives := by
      unfold Node.mergeKind? at hkind
      split at hkind
      · exact .inl (Option.some.inj hkind ▸ halternatives)
      · split at hkind
        · exact .inr (Option.some.inj hkind ▸ halternatives)
        · cases hkind
    left
    rcases hfrom with hfrom | hfrom
    · have hmembers : base.members ≠ [] := (hbase hfrom).resolve_right fun hne => hne hguards
      simp [hmembers]
    · have hmembers : branch.members ≠ [] := (hbranch hfrom).resolve_right fun hne => hne hplain
      simp [hmembers]

theorem Reaches.hasMembers (hroot : root.All Node.HasMembers) (h : Reaches levels root l n) :
    n.All Node.HasMembers := by
  induction h with
  | root => exact hroot
  | step _ hm ih =>
    apply all_of_mem_children _ _ ih hm
    · exact fun _ _ hbase _ => hasMembers_guardBase hbase
    · exact fun _ _ _ hmerge hguards => hasMembers_merge hmerge hguards

theorem Reaches.members_ne_nil (hroot : root.All Node.HasMembers) (h : Reaches levels root l n)
    (hguards : n.guards = []) (hkind : n.kind = .alternatives) : n.members ≠ [] :=
  ((h.hasMembers hroot).self hkind).resolve_right fun hne => hne hguards

/-! ## What is joined -/

/-- The lists of code that are joined in a union while a node is written, with whatever was declared
and noted before. -/
inductive Joins (setting : Setting ε) (levels : Nat) (root : Node) : List Code → Prop where
  /-- Listed values, if there are any. -/
  | listed {l : Nat} {n : Node} {members : List Code} (hn : Reaches levels root (l + 1) n)
    (hvalids : n.valids.isEmpty = false) (h : n.valids.mapM exactly = .ok members) :
    Joins setting levels root members
  /-- Values that are accepted besides, with the code that accepts the others. -/
  | accepted {l : Nat} {n : Node} {target : Code} {members : List Code}
    (hn : Reaches levels root (l + 1) n)
    (h : (n.allow.filter fun v => !v.isNull).mapM exactly = .ok members) :
    Joins setting levels root (target :: members)
  /-- The items of an array, if there are any. -/
  | items {l : Nat} {n : Node} {items : List Code} {p q : Progress}
    (hn : Reaches levels root (l + 1) n)
    (h : n.items.mapM (write setting l) p = .ok (items, q)) (hitems : items.isEmpty = false) :
    Joins setting levels root items
  /-- The members of alternatives. -/
  | members {l : Nat} {n : Node} {members : List Code} {p q : Progress}
    (hn : Reaches levels root (l + 1) n) (hguards : n.guards = []) (hkind : n.kind = .alternatives)
    (h : n.members.mapM (write setting l) p = .ok (members, q)) : Joins setting levels root members
  /-- The branches of the conditionals of a property, each once. -/
  | slots {l : Nat} {n k : Node} {name : String} {selections : List Selection} {p q : Progress}
    (hn : Reaches levels root (l + 1) n) (hk : (name, k) ∈ n.keys.getD []) (hguards : k.guards ≠ [])
    (h : k.guards.mapM (selection setting (write setting l) (guardBase k) name) p =
      .ok (selections, q)) :
    Joins setting levels root ((selections.flatMap Selection.branches).foldl addSlot [])

/-- Whatever is joined has something in it. -/
theorem Joins.ne_nil {members : List Code} (hroot : root.All Node.HasMembers)
    (h : Joins setting levels root members) : members ≠ [] := by
  cases h with
  | listed hn hvalids h =>
    have hlength := (Outcome.mapM_forall₂ h).length_eq
    exact ne_nil_of_length_eq hlength.symm (by simpa using hvalids)
  | accepted hn h => exact List.cons_ne_nil _ _
  | items hn h hitems => simpa using hitems
  | members hn hguards hkind h =>
    exact ne_nil_of_length_eq (mapM_length h) (hn.members_ne_nil hroot hguards hkind)
  | @slots l n k name selections p q hn hk hguards h =>
    have hselection : ∀ guard ∈ k.guards, growth.Holds (Selection.All (fun _ => True) fun _ => True)
        (selection setting (write setting l) (guardBase k) name guard) := by
      intro guard _
      apply selection_holds Code.Closed.trivial.composed
      · exact fun _ => trivial
      · exact fun m _ => write_growth setting l m
    have hall := ((Contract.holds_mapM hselection).1 p selections q h).1
    exact selections_ne_nil (ne_nil_of_length_eq (mapM_length h) hguards) hall

theorem rulesKeep_unions (htable : setting.rules.KeepsUnions) (n : Node) :
    RulesKeep (Code.All Code.IsProper) setting n := by
  refine rulesKeep_of_emitters (fun kind name emitter hget target rule site code ht hcode => ?_) n
  rcases htable kind name emitter hget with ⟨form, rfl⟩ | hkeeps
  · rw [Emitter.emit_form] at hcode
    exact RuleForm.emit_pieces Code.isProper_lenient ht hcode
  · exact hkeeps target rule site code ht hcode

/-- The code of every node that is reached has no degenerate unions. -/
theorem write_isProper (htable : setting.rules.KeepsUnions) (hroot : root.All Node.HasMembers)
    (hn : Reaches levels root l n) :
    (declaring (Code.All Code.IsProper) (fun _ => True) fun _ => trivial).Holds
      (Code.All Code.IsProper) (write setting l n) := by
  have hlenient := Code.isProper_lenient
  apply write_declares hlenient.composed _ _ _ hn
  · exact fun name => Code.all_leaf (hlenient.plain rfl) rfl
  · intro l n hn _ hguards
    refine ⟨rulesKeep_unions htable n, fun v _ => ?_, ?_, fun hkind hnone => ?_⟩
    · exact Code.all_leaf (fun args h => by cases h) rfl
    · exact Code.all_leaf (fun args h => by cases h) rfl
    · exact absurd hnone (hn.members_ne_nil hroot hguards hkind)
  · exact fun _ _ _ _ _ => ⟨fun _ _ _ => trivial, fun _ _ _ _ => trivial, fun _ _ _ _ => trivial⟩

end Writing

theorem Node.read_hasMembers {limit : Int} {levels : Nat} {raw : Value} {path : Path} {n : Node}
    (h : read limit levels raw path = .ok n) : n.All HasMembers :=
  read_all (V := fun _ => True) (fun _ _ _ _ => trivial) (fun _ hn => hn.housed.alternatives)
    (fun hn => hn.housed.alternatives) trivial h

namespace Compiler

/-- Whatever the options and the rule table, what is joined while a description is written is never
empty. All unions in the code of a node or of a property, in the code that comes out and in the bodies
of the declarations have two members at least, unless an emitter that is no form makes others. -/
theorem compile_unions {ε : Type} [Emitter ε] {c : Compiler ε} {raw : Value} {root : Node}
    (hread : Node.ofValue c.options.maxDepth raw = .ok root) :
    (∀ members, Writing.Joins c.setting c.options.maxDepth root members → members ≠ []) ∧
      (c.rules.KeepsUnions →
        (∀ l n, Writing.Reaches c.options.maxDepth root l n → ∀ p code q,
          Writing.write c.setting l n p = .ok (code, q) ∨
            Writing.field c.setting (Writing.write c.setting l) n p = .ok (code, q) →
          code.All Code.IsProper) ∧
        ∀ result, c.compile (.tree raw) = .ok result → ∃ top declared,
          result.code = Listing.text c.options top declared (topName root top declared) ∧
            top.All Code.IsProper ∧ ∀ entry ∈ declared.entries, entry.body.All Code.IsProper) := by
  have hroot : root.All Node.HasMembers := Node.read_hasMembers hread
  refine ⟨fun members h => h.ne_nil hroot, fun htable => ⟨fun l n hn p code q hcode => ?_, fun result h => ?_⟩⟩
  · exact Writing.good_of_written Code.isProper_lenient.composed
      (Writing.write_isProper htable hroot hn) hcode
  · exact good_of_compiled hread (Writing.write_isProper htable hroot .root) h

/-- Alternatives between a string and an object, with a rule of its own for strings. One property of the
object has nothing but a conditional member, which is made of alternatives again, and another one has
plain members and a branch with one more. -/
theorem compile_unions_conditional :
    let kinds (names : List String) : Value := .list (names.map fun name =>
      .map [(.str "schema", .map [(.str "type", .str name)])])
    let members (names : List String) : Value := .map
      [(.str "type", .str "alternatives"), (.str "matches", kinds names)]
    let description : Value := .map [(.str "type", .str "alternatives"), (.str "matches", .list
      [.map [(.str "schema", .map [(.str "type", .str "string"),
          (.str "rules", .list [.map [(.str "name", .str "slug")]])])],
        .map [(.str "schema", .map [(.str "type", .str "object"), (.str "keys", .map
          [(.str "size", .map [(.str "type", .str "number")]),
            (.str "unit", .map [(.str "type", .str "alternatives"), (.str "matches", .list
              [.map [(.str "ref", .str "size"), (.str "is", .int 1),
                (.str "then", members ["string", "boolean"])]])]),
            (.str "form", .map [(.str "type", .str "alternatives"),
              (.str "matches", kinds ["string", "number"]),
              (.str "whens", .list [.map [(.str "ref", .str "size"), (.str "is", .int 1),
                (.str "then", members ["boolean"])]])])])])]])]
    let slug : FreeForm := ⟨fun target _ _ => .ok (target.chain ⟨"slug", []⟩)⟩
    let c : Compiler FreeForm := ⟨{}, ⟨[⟨.string, "slug", some slug⟩]⟩⟩
    ∃ root, Node.ofValue (64 : Nat) description = .ok root ∧
      (∃ members, Writing.Joins c.setting 64 root members ∧ members ≠ []) ∧
      ∃ result top declared, c.compile (.tree description) = .ok result ∧
        result.code = Listing.text {} top declared (topName root top declared) ∧
        top.All Code.IsProper := by
  intro kinds members description slug c
  obtain ⟨root, hread, hguards, hkind, joined, q, hmembers⟩ : ∃ root,
      Node.ofValue (64 : Nat) description = .ok root ∧ root.guards = [] ∧
        root.kind = .alternatives ∧ ∃ joined q,
          root.members.mapM (Writing.write c.setting 63) {} = .ok (joined, q) :=
    ⟨_, rfl, rfl, rfl, _, _, rfl⟩
  obtain ⟨result, hrun⟩ : ∃ result, c.compile (.tree description) = .ok result := ⟨_, rfl⟩
  have htable : c.rules.KeepsUnions := by
    intro kind name emitter hget
    right
    intro target rule site code ht hcode
    have hslug : emitter = slug := by
      simp only [c, Rulebook.get?, Rulebook.find?, List.find?_cons, List.find?_nil] at hget
      split at hget
      · exact (Option.some.inj hget).symm
      · cases hget
    subst hslug
    cases hcode
    have hargs : ∀ call ∈ ([⟨"slug", []⟩] : List Code.Call), ∀ a ∈ call.args,
        a.All Code.IsProper := by simp
    exact Code.isProper_lenient.chainAll ht hargs
  obtain ⟨hjoins, hunions⟩ := compile_unions (c := c) hread
  have hjoined : Writing.Joins c.setting 64 root joined := .members .root hguards hkind hmembers
  obtain ⟨top, declared, hcode, htop, -⟩ := (hunions htable).2 result hrun
  exact ⟨root, hread, ⟨joined, hjoined, hjoins joined hjoined⟩, result, top, declared, hrun, hcode,
    htop⟩

end Compiler

end Schemata
