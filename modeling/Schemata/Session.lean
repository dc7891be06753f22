import Schemata.Compiler
/-!
Sessions: rule tables and compilers that live side by side.

A table refers to a dictionary in a store. Registering a rule changes that dictionary in place, so that
whatever refers to the same one sees the change. A new table copies a dictionary to a place of its own:
the one with the built-in rules, an empty one, or that of another table. A compiler is made with a new
table too, and never with the table that it is given.
-/

namespace Schemata

/-! ## Dictionaries -/

/-- The place of a dictionary in a store. -/
abbrev Address := Nat

/-- The dictionaries that were made so far, in the order in which they were made. -/
structure Store (ε : Type := RuleForm) where
  dictionaries : List (Rulebook ε)
deriving Repr, Inhabited

namespace Store

variable {ε : Type}

def read? (store : Store ε) (a : Address) : Option (Rulebook ε) := store.dictionaries[a]?

def next (store : Store ε) : Address := store.dictionaries.length

def allocate (store : Store ε) (content : Rulebook ε) : Store ε := ⟨store.dictionaries ++ [content]⟩

/-- Changes a dictionary in place. -/
def write (store : Store ε) (a : Address) (content : Rulebook ε) : Store ε :=
  ⟨store.dictionaries.set a content⟩

/-- The place of the built-in rules, which are there from the start. -/
def builtinAddress : Address := 0

end Store

/-! ## Tables and compilers -/

/-- Whose rules a command is about. -/
inductive Owner where
  | table (name : String)
  | compiler (name : String)
deriving DecidableEq, Repr, Inhabited

/-- A table or a compiler. A table has no use for options. -/
structure Instance where
  options : Options := {}
  rules : Address
deriving Repr, Inhabited

/-- The tables and compilers of a session. What a name stands for comes before what it stood for
earlier. -/
structure Session (ε : Type := RuleForm) [Emitter ε] where
  store : Store ε := ⟨[Rulebook.builtin]⟩
  instances : List (Owner × Instance) := []
deriving Repr, Inhabited

/-- Where the rules of a new table come from. -/
inductive Origin where
  | empty
  | builtin
  | copy (source : Owner)
deriving DecidableEq, Repr, Inhabited

/-- What a rule is registered with. -/
inductive EmitterSource (ε : Type := RuleForm) where
  | emitter (e : ε)
  /-- Whatever another rule of the same table is registered with. -/
  | sameAs (kind : Kind) (rule : String)
deriving DecidableEq, Repr, Inhabited

inductive Command (ε : Type := RuleForm) where
  | newTable (name : String) (origin : Origin)
  | newCompiler (name : String) (origin : Origin) (options : Options)
  | compile (compiler : String) (description : Description)
  | register (owner : Owner) (kind : Kind) (rule : String) (source : EmitterSource ε)
  | contains (owner : Owner) (kind : Kind) (rule : String)
  | get (owner : Owner) (kind : Kind) (rule : String)
  | list (owner : Owner) (kind : Option Kind)
  | size (owner : Owner)
deriving Repr, Inhabited

inductive Answer (ε : Type := RuleForm) where
  | size (n : Nat)
  | contains (b : Bool)
  | found (emitter : Option ε)
  | rules (listed : List (Kind × String))
  | compiled (outcome : Written Result)
  /-- There is no table or compiler of that name. -/
  | unknown

namespace Session

variable {ε : Type} [Emitter ε]

def instance? (s : Session ε) (owner : Owner) : Option Instance := s.instances.lookup owner

/-- The rules of a table or a compiler, as its dictionary has them now. -/
def rulesOf? (s : Session ε) (owner : Owner) : Option (Rulebook ε) :=
  (s.instance? owner).bind fun i => s.store.read? i.rules

/-- What is copied for a new table. -/
def content? (s : Session ε) : Origin → Option (Rulebook ε)
  | .empty => some {}
  | .builtin => s.store.read? Store.builtinAddress
  | .copy source => s.rulesOf? source

/-- Makes a table or a compiler with a dictionary of its own. -/
def make (s : Session ε) (owner : Owner) (origin : Origin) (options : Options) :
    Session ε × Answer ε :=
  match s.content? origin with
  | some content =>
    ({ store := s.store.allocate content
       instances := (owner, ⟨options, s.store.next⟩) :: s.instances }, .size content.size)
  | none => (s, .unknown)

/-- The emitter that a rule is registered with. -/
def resolve (table : Rulebook ε) : EmitterSource ε → Option ε
  | .emitter e => some e
  | .sameAs kind rule => table.get? kind rule

/-- Registers a rule in the dictionary of a table or a compiler. -/
def register (s : Session ε) (owner : Owner) (kind : Kind) (rule : String)
    (source : EmitterSource ε) : Session ε × Answer ε :=
  match s.instance? owner with
  | some i =>
    match s.store.read? i.rules with
    | some table =>
      let changed := table.register kind rule (resolve table source)
      ({ s with store := s.store.write i.rules changed }, .size changed.size)
    | none => (s, .unknown)
  | none => (s, .unknown)

/-- An answer that is read off the rules of a table or a compiler. -/
def ask (s : Session ε) (owner : Owner) (answer : Rulebook ε → Answer ε) : Answer ε :=
  match s.rulesOf? owner with
  | some table => answer table
  | none => .unknown

/-- Compiles with the options of a compiler and with what its dictionary has now. -/
def compile (s : Session ε) (compiler : String) (description : Description) : Answer ε :=
  match s.instance? (.compiler compiler) with
  | some i => s.ask (.compiler compiler) fun rules =>
      .compiled (Compiler.compile ⟨i.options, rules⟩ description)
  | none => .unknown

def step (s : Session ε) : Command ε → Session ε × Answer ε
  | .newTable name origin => s.make (.table name) origin {}
  | .newCompiler name origin options => s.make (.compiler name) origin options
  | .compile compiler description => (s, s.compile compiler description)
  | .register owner kind rule source => s.register owner kind rule source
  | .contains owner kind rule =>
    (s, s.ask owner fun table => .contains (table.contains kind rule))
  | .get owner kind rule => (s, s.ask owner fun table => .found (table.get? kind rule))
  | .list owner kind => (s, s.ask owner fun table => .rules (table.list kind))
  | .size owner => (s, s.ask owner fun table => .size table.size)

def run (commands : List (Command ε)) : Session ε :=
  commands.foldl (fun s command => (s.step command).1) {}

end Session

end Schemata
