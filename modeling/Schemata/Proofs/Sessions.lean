import Mathlib.Data.List.Nodup
import Mathlib.Logic.Function.Basic
import Schemata.Session
/-!
Tables and compilers of a session keep out of each other's way.

A dictionary that is changed in place changes for everything that refers to it. The tables and compilers
of a session never refer to the same dictionary, and none of them to the one with the built-in rules
(`run_separate`): making one of them always copies. So the history of a table or a compiler, which is
what it was made with and the rules registered on it since, decides every answer about it, whatever
was done to the others (`run_isolated`). The rules stand in the order in which they were first
registered, and each has the emitter that was registered last.
-/

namespace Schemata

variable {ε : Type}

/-! ## Tables as ordered maps -/

def RuleEntry.key (e : RuleEntry ε) : Kind × String := (e.kind, e.name)

namespace Rulebook

def keys (table : Rulebook ε) : List (Kind × String) := table.entries.map RuleEntry.key

theorem isFor_iff {kind : Kind} {name : String} {e : RuleEntry ε} :
    isFor kind name e = true ↔ e.key = (kind, name) := by
  simp [isFor, RuleEntry.key]

theorem list_eq (table : Rulebook ε) (kind : Option Kind) :
    table.list kind = table.keys.filter fun key => kind.all (· == key.1) := by
  rw [keys, List.filter_map]
  rfl

theorem size_eq (table : Rulebook ε) : table.size = table.keys.length := (List.length_map _).symm

/-- Setting an entry keeps the place of its rule, or adds the rule at the end. -/
theorem keys_setEntry (entries : List (RuleEntry ε)) (new : RuleEntry ε) :
    (setEntry entries new).map RuleEntry.key =
      if new.key ∈ entries.map RuleEntry.key then entries.map RuleEntry.key
      else entries.map RuleEntry.key ++ [new.key] := by
  induction entries with
  | nil => simp [setEntry]
  | cons e rest ih =>
    by_cases hkey : e.key = new.key
    · have hfor : isFor new.kind new.name e = true := isFor_iff.2 hkey
      simp only [setEntry, hfor, if_true, List.map_cons, hkey, List.mem_cons, true_or]
    · have hfor : ¬isFor new.kind new.name e = true := fun h => hkey (isFor_iff.1 h)
      simp only [setEntry, hfor, if_false, List.map_cons, ih, List.mem_cons, Ne.symm hkey, false_or,
        Bool.false_eq_true]
      split <;> simp

/-- Only the rule that is set has another entry. -/
theorem find?_setEntry (entries : List (RuleEntry ε)) (new : RuleEntry ε) (kind : Kind) (name : String) :
    (setEntry entries new).find? (isFor kind name) =
      if isFor kind name new then some new else entries.find? (isFor kind name) := by
  induction entries with
  | nil =>
    cases hnew : isFor kind name new <;> simp [setEntry, hnew]
  | cons e rest ih =>
    by_cases hkey : e.key = new.key
    · have hfor : isFor new.kind new.name e = true := isFor_iff.2 hkey
      have hsame : isFor kind name e = isFor kind name new := by
        rw [Bool.eq_iff_iff, isFor_iff, isFor_iff, hkey]
      cases hnew : isFor kind name new <;> simp [setEntry, hfor, hsame, hnew]
    · have hfor : isFor new.kind new.name e = false := by
        simpa using fun h => hkey (isFor_iff.1 h)
      -- The entry in front is for another rule than the one that is set.
      cases he : isFor kind name e with
      | true =>
        have hnew : isFor kind name new = false := by
          simpa using fun h => hkey ((isFor_iff.1 he).trans (isFor_iff.1 h).symm)
        simp [setEntry, hfor, he, hnew]
      | false => simp [setEntry, hfor, he, ih]

/-- The built-in table lists no rule twice. -/
theorem builtin_keys_nodup [Emitter ε] : (builtin : Rulebook ε).keys.Nodup := by
  have hkeys : (builtin : Rulebook ε).keys = (builtin : Rulebook RuleForm).keys := rfl
  rw [hkeys]
  decide +kernel

/-- A table with some entries registered one after the other. -/
def registerAll (table : Rulebook ε) (entries : List (RuleEntry ε)) : Rulebook ε :=
  entries.foldl (fun table e => table.register e.kind e.name e.emitter) table

theorem keys_register_nodup {table : Rulebook ε} (h : table.keys.Nodup) (e : RuleEntry ε) :
    (table.register e.kind e.name e.emitter).keys.Nodup := by
  rw [keys, register, keys_setEntry]
  split
  · exact h
  · rename_i hnew
    rw [← List.concat_eq_append]
    exact List.Nodup.concat hnew h

theorem eraseDups_of_nodup {l : List (Kind × String)} (h : l.Nodup) : l.eraseDups = l := by
  induction l with
  | nil => rfl
  | cons a rest ih =>
    obtain ⟨hnew, hrest⟩ := List.nodup_cons.1 h
    have hfilter : rest.filter (fun b => !b == a) = rest := by
      refine List.filter_eq_self.2 fun b hb => ?_
      have hne : b ≠ a := fun hba => hnew (hba ▸ hb)
      simpa using hne
    rw [List.eraseDups_cons, hfilter, ih hrest]

/-- Rules stand in the order of their first registration, each of them once. -/
theorem keys_registerAll {table : Rulebook ε} (h : table.keys.Nodup) (entries : List (RuleEntry ε)) :
    (table.registerAll entries).keys = (table.keys ++ entries.map RuleEntry.key).eraseDups := by
  induction entries generalizing table with
  | nil => rw [List.map_nil, List.append_nil, eraseDups_of_nodup h, registerAll, List.foldl_nil]
  | cons e rest ih =>
    have hkeys : (table.register e.kind e.name e.emitter).keys =
        if e.key ∈ table.keys then table.keys else table.keys ++ [e.key] :=
      keys_setEntry table.entries e
    rw [registerAll, List.foldl_cons, ← registerAll, ih (keys_register_nodup h e), hkeys,
      List.map_cons]
    split
    · rename_i hmem
      -- A rule that is there already is left out of the rest.
      rw [List.eraseDups_append, List.eraseDups_append, List.removeAll, List.removeAll,
        List.filter_cons_of_neg (by simpa using hmem)]
    · rw [List.append_assoc, List.singleton_append]

/-- A rule has the entry that was registered last. -/
theorem find?_registerAll (table : Rulebook ε) (entries : List (RuleEntry ε)) (kind : Kind) (name : String) :
    (table.registerAll entries).find? kind name =
      (entries.reverse.find? (isFor kind name)).or (table.find? kind name) := by
  induction entries generalizing table with
  | nil => rfl
  | cons e rest ih =>
    have hfind : (table.register e.kind e.name e.emitter).find? kind name =
        if isFor kind name e then some e else table.find? kind name :=
      find?_setEntry table.entries e kind name
    rw [registerAll, List.foldl_cons, ← registerAll, ih, hfind, List.reverse_cons, List.find?_append]
    cases hfor : isFor kind name e <;> simp [List.find?, hfor]

theorem keys_registerAll_nodup {table : Rulebook ε} (h : table.keys.Nodup) (entries : List (RuleEntry ε)) :
    (table.registerAll entries).keys.Nodup := by
  induction entries generalizing table with
  | nil => exact h
  | cons e rest ih => exact ih (keys_register_nodup h e)

end Rulebook

/-! ## Histories -/

/-- What happened to a table or a compiler. -/
structure History (ε : Type := RuleForm) where
  /-- The rules it was made with. -/
  start : Rulebook ε
  options : Options := {}
  /-- The rules registered on it since, in order. -/
  registered : List (RuleEntry ε) := []

namespace History

def rules (h : History ε) : Rulebook ε := h.start.registerAll h.registered

def add (h : History ε) (e : RuleEntry ε) : History ε :=
  { h with registered := h.registered ++ [e] }

/-- What a rule was registered with last, or else at the start. -/
def latest? (h : History ε) (kind : Kind) (rule : String) : Option (RuleEntry ε) :=
  (h.registered.reverse.find? (Rulebook.isFor kind rule)).or (h.start.find? kind rule)

/-- All rules in the order in which they were first registered. -/
def order (h : History ε) : List (Kind × String) :=
  (h.start.keys ++ h.registered.map RuleEntry.key).eraseDups

theorem rules_add (h : History ε) (e : RuleEntry ε) :
    (h.add e).rules = h.rules.register e.kind e.name e.emitter := by
  simp only [rules, add, Rulebook.registerAll, List.foldl_append, List.foldl_cons, List.foldl_nil]

end History

/-- The histories of all tables and compilers that there are. -/
abbrev Histories (ε : Type := RuleForm) := Owner → Option (History ε)

namespace Histories

variable [Emitter ε]

/-- What a new table starts with: a snapshot of the rules that it is made from. -/
def snapshot? (own : Histories ε) : Origin → Option (Rulebook ε)
  | .empty => some {}
  | .builtin => some Rulebook.builtin
  | .copy source => (own source).map History.rules

/-- The one history that a command writes, if any: of the table or the compiler that it makes, or that
it registers a rule on. -/
def written? (own : Histories ε) : Command ε → Option (Owner × History ε)
  | .newTable name origin => (own.snapshot? origin).map fun start => (.table name, { start })
  | .newCompiler name origin options =>
    (own.snapshot? origin).map fun start => (.compiler name, { start, options })
  | .register owner kind rule source =>
    (own owner).map fun h => (owner, h.add ⟨kind, rule, Session.resolve h.rules source⟩)
  | _ => none

/-- The histories after one more command. -/
def after (own : Histories ε) (command : Command ε) : Histories ε :=
  match own.written? command with
  | some (owner, h) => Function.update own owner (some h)
  | none => own

/-- The histories that some commands leave behind. -/
def of (commands : List (Command ε)) : Histories ε := commands.foldl after fun _ => none

end Histories

/-! ## Dictionaries that are not shared -/

namespace Store

variable {store : Store ε} {a b : Address} {content : Rulebook ε}

theorem lt_next (h : store.read? a = some content) : a < store.next :=
  (List.getElem?_eq_some_iff.1 h).1

theorem read?_allocate (new : Rulebook ε) (h : store.read? a = some content) :
    (store.allocate new).read? a = some content := by
  rw [← h]
  exact List.getElem?_append_left (lt_next h)

theorem read?_allocate_next (store : Store ε) (new : Rulebook ε) :
    (store.allocate new).read? store.next = some new :=
  List.getElem?_concat_length

theorem read?_write (new : Rulebook ε) (h : store.read? a = some content) :
    (store.write a new).read? a = some new :=
  List.getElem?_set_self (lt_next h)

theorem read?_write_of_ne (new : Rulebook ε) (h : a ≠ b) :
    (store.write a new).read? b = store.read? b :=
  List.getElem?_set_ne h

end Store

namespace Session

variable [Emitter ε] {s : Session ε} {own : Histories ε} {owner : Owner} {h : History ε}

/-- Every table and every compiler has a dictionary of its own, and the built-in rules are as they were
at the start. -/
structure Separate (s : Session ε) : Prop where
  builtin : s.store.read? Store.builtinAddress = some Rulebook.builtin
  held : ∀ owner i, s.instance? owner = some i → ∃ rules, s.store.read? i.rules = some rules
  notBuiltin : ∀ owner i, s.instance? owner = some i → i.rules ≠ Store.builtinAddress
  apart : ∀ owner other i j, s.instance? owner = some i → s.instance? other = some j →
    i.rules = j.rules → owner = other

theorem instance?_cons (store : Store ε) (owner other : Owner) (i : Instance) :
    instance? ⟨store, (owner, i) :: s.instances⟩ other =
      if other = owner then some i else s.instance? other := by
  unfold instance?
  by_cases h : other = owner
  · simp [h]
  · simp [List.lookup_cons, h, beq_false_of_ne h]

/-- A copy goes to a place that nothing refers to yet. -/
theorem Separate.allocate (hs : s.Separate) (owner : Owner) (options : Options)
    (content : Rulebook ε) :
    Separate ⟨s.store.allocate content, (owner, ⟨options, s.store.next⟩) :: s.instances⟩ := by
  have hnew : ∀ other i, s.instance? other = some i → i.rules ≠ s.store.next := by
    intro other i hi
    obtain ⟨rules, hrules⟩ := hs.held other i hi
    exact Nat.ne_of_lt (Store.lt_next hrules)
  constructor
  · exact Store.read?_allocate content hs.builtin
  · intro other i hi
    rw [instance?_cons] at hi
    split at hi
    · cases hi
      exact ⟨content, Store.read?_allocate_next s.store content⟩
    · obtain ⟨rules, hrules⟩ := hs.held other i hi
      exact ⟨rules, Store.read?_allocate content hrules⟩
  · intro other i hi
    rw [instance?_cons] at hi
    split at hi
    · cases hi
      exact Nat.ne_of_gt (Store.lt_next hs.builtin)
    · exact hs.notBuiltin other i hi
  · intro first second i j hi hj hij
    rw [instance?_cons] at hi hj
    split at hi <;> split at hj
    · simp_all
    · cases hi
      exact absurd hij.symm (hnew second j hj)
    · cases hj
      exact absurd hij (hnew first i hi)
    · exact hs.apart first second i j hi hj hij

/-- A change in place leaves all references as they are, and the built-in rules as well. -/
theorem Separate.write (hs : s.Separate) {i : Instance} (hi : s.instance? owner = some i)
    (content : Rulebook ε) : Separate { s with store := s.store.write i.rules content } := by
  constructor
  · rw [Store.read?_write_of_ne content (hs.notBuiltin owner i hi)]
    exact hs.builtin
  · intro other j hj
    by_cases heq : i.rules = j.rules
    · obtain ⟨rules, hrules⟩ := hs.held owner i hi
      exact ⟨content, heq ▸ Store.read?_write content hrules⟩
    · obtain ⟨rules, hrules⟩ := hs.held other j hj
      exact ⟨rules, (Store.read?_write_of_ne content heq).trans hrules⟩
  · exact hs.notBuiltin
  · exact hs.apart

/-! ## Sessions and histories -/

/-- The dictionaries of a session hold what comes out of some histories. -/
structure Follows (s : Session ε) (own : Histories ε) : Prop extends s.Separate where
  unknown : ∀ owner, own owner = none → s.instance? owner = none
  known : ∀ owner h, own owner = some h → ∃ a,
    s.instance? owner = some ⟨h.options, a⟩ ∧ s.store.read? a = some h.rules

theorem Follows.rulesOf? (hs : s.Follows own) (owner : Owner) :
    s.rulesOf? owner = (own owner).map History.rules := by
  cases hown : own owner with
  | none => simp [Session.rulesOf?, hs.unknown owner hown]
  | some h =>
    obtain ⟨a, hinstance, hread⟩ := hs.known owner h hown
    simp [Session.rulesOf?, hinstance, hread]

theorem Follows.content? (hs : s.Follows own) (origin : Origin) :
    s.content? origin = own.snapshot? origin := by
  cases origin with
  | empty => rfl
  | builtin => exact hs.builtin
  | copy source => exact hs.rulesOf? source

/-- What is made starts a history of its own and leaves the others alone. -/
theorem Follows.make (hs : s.Follows own) (owner : Owner) (options : Options) (start : Rulebook ε) :
    Follows ⟨s.store.allocate start, (owner, ⟨options, s.store.next⟩) :: s.instances⟩
      (Function.update own owner (some { start, options })) where
  toSeparate := hs.allocate owner options start
  unknown other hother := by
    rw [instance?_cons]
    by_cases heq : other = owner
    · subst heq
      simp at hother
    · rw [if_neg heq]
      rw [Function.update_of_ne heq] at hother
      exact hs.unknown other hother
  known other h hother := by
    rw [instance?_cons]
    by_cases heq : other = owner
    · subst heq
      rw [Function.update_self] at hother
      cases hother
      exact ⟨s.store.next, if_pos rfl, Store.read?_allocate_next s.store start⟩
    · rw [Function.update_of_ne heq] at hother
      obtain ⟨a, hinstance, hread⟩ := hs.known other h hother
      exact ⟨a, by rw [if_neg heq, hinstance], Store.read?_allocate start hread⟩

/-- A rule that is registered adds to one history, since no other refers to the dictionary. -/
theorem Follows.register (hs : s.Follows own) (hown : own owner = some h) {a : Address}
    (hinstance : s.instance? owner = some ⟨h.options, a⟩) (hread : s.store.read? a = some h.rules)
    (e : RuleEntry ε) :
    Follows { s with store := s.store.write a (h.rules.register e.kind e.name e.emitter) }
      (Function.update own owner (some (h.add e))) where
  toSeparate := hs.write hinstance _
  unknown other hother := by
    by_cases heq : other = owner
    · subst heq
      simp at hother
    · rw [Function.update_of_ne heq] at hother
      exact hs.unknown other hother
  known other h' hother := by
    rw [← History.rules_add]
    by_cases heq : other = owner
    · subst heq
      rw [Function.update_self] at hother
      cases hother
      exact ⟨a, hinstance, Store.read?_write _ hread⟩
    · rw [Function.update_of_ne heq] at hother
      obtain ⟨b, hother, hread'⟩ := hs.known other h' hother
      have hne : a ≠ b := fun hab => heq (hs.apart _ _ _ _ hother hinstance hab.symm)
      exact ⟨b, hother, (Store.read?_write_of_ne _ hne).trans hread'⟩

/-- A command leaves the session as its histories say. -/
theorem Follows.step (hs : s.Follows own) (command : Command ε) :
    Follows (s.step command).1 (own.after command) := by
  have hmake : ∀ owner origin options,
      Follows (s.make owner origin options).1 (match (own.snapshot? origin).map fun start =>
        (owner, ({ start, options } : History ε)) with
        | some (owner, h) => Function.update own owner (some h)
        | none => own) := by
    intro owner origin options
    unfold Session.make
    rw [hs.content?]
    cases own.snapshot? origin with
    | none => exact hs
    | some start => exact hs.make owner options start
  cases command with
  | newTable name origin => exact hmake (.table name) origin {}
  | newCompiler name origin options => exact hmake (.compiler name) origin options
  | register owner kind rule source =>
    simp only [Session.step, Session.register, Histories.after, Histories.written?]
    cases hown : own owner with
    | none =>
      rw [hs.unknown owner hown]
      exact hs
    | some h =>
      obtain ⟨a, hinstance, hread⟩ := hs.known owner h hown
      simp only [hinstance, hread]
      exact hs.register hown hinstance hread ⟨kind, rule, resolve h.rules source⟩
  | _ => exact hs

/-- A session follows the histories that its commands leave behind. -/
theorem run_follows (commands : List (Command ε)) : (run commands).Follows (.of commands) := by
  have hrun : ∀ (commands : List (Command ε)) (s : Session ε) (own : Histories ε), s.Follows own →
      Follows (commands.foldl (fun s command => (s.step command).1) s)
        (commands.foldl Histories.after own) := by
    intro commands
    induction commands with
    | nil => exact fun s own hs => hs
    | cons command rest ih => exact fun s own hs => ih _ _ (hs.step command)
  have hstart : Follows ({} : Session ε) fun _ => none :=
    { builtin := rfl
      held := fun _ _ hnone => by cases hnone
      notBuiltin := fun _ _ hnone => by cases hnone
      apart := fun _ _ _ _ hnone => by cases hnone
      unknown := fun _ _ => rfl
      known := fun _ _ hnone => by cases hnone }
  exact hrun commands {} _ hstart

/-- Whatever commands were run, no two tables or compilers share a dictionary, and none has the one with
the built-in rules. -/
theorem run_separate (commands : List (Command ε)) : (run commands).Separate :=
  (run_follows commands).toSeparate

/-! ## Answers -/

/-- No history starts with a table that lists a rule twice. -/
def StartsInOrder (own : Histories ε) : Prop :=
  ∀ owner h, own owner = some h → h.start.keys.Nodup

theorem StartsInOrder.snapshot (hown : StartsInOrder own) {origin : Origin} {start : Rulebook ε}
    (h : own.snapshot? origin = some start) : start.keys.Nodup := by
  cases origin with
  | empty =>
    cases h
    exact List.nodup_nil
  | builtin =>
    cases h
    exact Rulebook.builtin_keys_nodup
  | copy source =>
    obtain ⟨first, hfirst, rfl⟩ := Option.map_eq_some_iff.1 h
    exact Rulebook.keys_registerAll_nodup (hown source first hfirst) first.registered

theorem StartsInOrder.after (hown : StartsInOrder own) (command : Command ε) :
    StartsInOrder (own.after command) := by
  have hwritten : ∀ owner h, own.written? command = some (owner, h) → h.start.keys.Nodup := by
    intro owner h hwritten
    cases command with
    | newTable name origin =>
      obtain ⟨start, hstart, hpair⟩ := Option.map_eq_some_iff.1 hwritten
      cases hpair
      exact hown.snapshot hstart
    | newCompiler name origin options =>
      obtain ⟨start, hstart, hpair⟩ := Option.map_eq_some_iff.1 hwritten
      cases hpair
      exact hown.snapshot hstart
    | register target kind rule source =>
      obtain ⟨first, hfirst, hpair⟩ := Option.map_eq_some_iff.1 hwritten
      cases hpair
      exact hown _ first hfirst
    | _ => cases hwritten
  intro owner h hh
  cases hnew : own.written? command with
  | none =>
    simp only [Histories.after, hnew] at hh
    exact hown owner h hh
  | some written =>
    simp only [Histories.after, hnew] at hh
    by_cases howner : owner = written.1
    · rw [howner, Function.update_self] at hh
      cases hh
      exact hwritten _ _ hnew
    · rw [Function.update_of_ne howner] at hh
      exact hown owner h hh

theorem startsInOrder_of (commands : List (Command ε)) : StartsInOrder (.of commands) := by
  have hrun : ∀ (commands : List (Command ε)) (own : Histories ε), StartsInOrder own →
      StartsInOrder (commands.foldl Histories.after own) := by
    intro commands
    induction commands with
    | nil => exact fun own hown => hown
    | cons command rest ih => exact fun own hown => ih _ (hown.after command)
  exact hrun commands _ fun owner h hnone => by cases hnone

/-- The answers about a table or a compiler are those that its own history gives. -/
structure AnswersFrom (s : Session ε) (owner : Owner) (h : History ε) : Prop where
  /-- A rule has the emitter that was registered last. -/
  get : ∀ kind rule,
    (s.step (.get owner kind rule)).2 = .found ((h.latest? kind rule).bind RuleEntry.emitter)
  contains : ∀ kind rule,
    (s.step (.contains owner kind rule)).2 = .contains (h.latest? kind rule).isSome
  /-- Rules are listed in the order of their first registration. -/
  list : ∀ kind, (s.step (.list owner kind)).2 =
    .rules (h.order.filter fun key => kind.all (· == key.1))
  size : (s.step (.size owner)).2 = .size h.order.length
  /-- A compiler writes with the options it was made with and with its own rules. -/
  compile : ∀ name, owner = .compiler name → ∀ description,
    (s.step (.compile name description)).2 =
      .compiled (Compiler.compile ⟨h.options, h.rules⟩ description)

theorem Follows.answersFrom (hs : s.Follows own) (hown : own owner = some h)
    (hstart : h.start.keys.Nodup) : s.AnswersFrom owner h := by
  have hask : ∀ answer, s.ask owner answer = answer h.rules := by
    intro answer
    simp only [ask, hs.rulesOf?, hown, Option.map_some]
  have hfind : ∀ kind rule, h.rules.find? kind rule = h.latest? kind rule :=
    Rulebook.find?_registerAll h.start h.registered
  have hkeys : h.rules.keys = h.order := Rulebook.keys_registerAll hstart h.registered
  refine ⟨fun kind rule => ?_, fun kind rule => ?_, fun kind => ?_, ?_, fun name howner description => ?_⟩
  · simp only [Session.step, hask, Rulebook.get?, hfind]
  · simp only [Session.step, hask, Rulebook.contains, hfind]
  · simp only [Session.step, hask, Rulebook.list_eq, hkeys]
  · simp only [Session.step, hask, Rulebook.size_eq, hkeys]
  · subst howner
    obtain ⟨a, hinstance, -⟩ := hs.known _ h hown
    simp only [Session.step, Session.compile, hinstance, hask]

/-- Tables and compilers are isolated. After any commands, in any order and with emitters of any kind,
the answers about a table or a compiler are those of its own history, from the snapshot of the rules
that it was made with to the last rule that was registered on it; what was never made is unknown. -/
theorem run_isolated (commands : List (Command ε)) (owner : Owner) :
    match Histories.of commands owner with
    | some h => (run commands).AnswersFrom owner h
    | none => (run commands).rulesOf? owner = none := by
  have hrun := run_follows commands
  split
  · rename_i h hown
    exact hrun.answersFrom hown (startsInOrder_of commands owner h hown)
  · rename_i hown
    rw [hrun.rulesOf?, hown, Option.map_none]

/-- A table, a copy of it, a compiler with a copy of the copy and a compiler with a copy of that one's
rules. What is registered later on one of them does not show up in the others. -/
theorem run_isolated_copies :
    let keep : FreeForm := ⟨fun target _ _ => .ok target⟩
    let drop : FreeForm := ⟨fun _ _ _ => .ok (.call "z.any" [])⟩
    let commands : List (Command FreeForm) :=
      [.newTable "base" .builtin, .newTable "copy" (.copy (.table "base")),
        .register (.table "copy") .string "digits" (.emitter keep),
        .newCompiler "first" (.copy (.table "copy")) {},
        .register (.table "base") .string "min" (.sameAs .string "none"),
        .newCompiler "second" (.copy (.compiler "first")) { strip := false },
        .register (.compiler "first") .string "digits" (.emitter drop)]
    (run commands).AnswersFrom (.table "base")
        { start := Rulebook.builtin, registered := [⟨.string, "min", none⟩] } ∧
      (run commands).AnswersFrom (.table "copy")
        { start := Rulebook.builtin, registered := [⟨.string, "digits", some keep⟩] } ∧
      (run commands).AnswersFrom (.compiler "first")
        { start := Rulebook.builtin.register .string "digits" keep
          registered := [⟨.string, "digits", some drop⟩] } ∧
      (run commands).AnswersFrom (.compiler "second")
        { start := Rulebook.builtin.register .string "digits" keep
          options := { strip := false } } := by
  intro keep drop commands
  exact ⟨run_isolated commands (.table "base"), run_isolated commands (.table "copy"),
    run_isolated commands (.compiler "first"), run_isolated commands (.compiler "second")⟩

end Session

end Schemata
