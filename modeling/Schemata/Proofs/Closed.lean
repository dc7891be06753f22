import Schemata.Writing.Primitive
/-!
Properties of code that are inherited from its parts.

What is said of all names, all literals or all calls inside a piece of code holds of the whole as soon
as it holds of the parts. Such a property travels through the writer without looking at the text.

Component: the code tree, `Code`, and what the writer builds it with. Main results:
- `Code.union_cases` — a union is its only member, or a call with all of them;
- `Closed.sorted` — a property that is inherited everywhere is inherited at each place of the code.
-/

namespace Schemata

/-- Whether a text consists of characters of names and of dots, like the name of a function. -/
def Text.isDotted (text : String) : Bool :=
  text.toList.all fun c => continuesIdentifier c || c == '.'

namespace Code

/-- A property of code that composed code has as soon as its parts have it. Nothing is said about
names. -/
structure Closed (good : Code → Prop) : Prop where
  raw : ∀ text precedence, good (.raw text precedence)
  literal : ∀ v, good (.literal v)
  exclusion : ∀ values, good (.exclusion values)
  filled : ∀ pieces args, good (.filled pieces args)
  call : ∀ {callee args}, (∀ a ∈ args, good a) → good (.call callee args)
  method : ∀ {target m args}, good target → (∀ a ∈ args, good a) → good (.method target m args)
  array : ∀ {items}, (∀ a ∈ items, good a) → good (.array items)
  object : ∀ {properties}, (∀ p ∈ properties, good p.2) → good (.object properties)
  record : ∀ {fields}, (∀ f ∈ fields, good f.2) → good (.record fields)
  success : ∀ {negated test}, good test → good (.success negated test)
  choice : ∀ {cases otherwise}, (∀ c ∈ cases, good c.1 ∧ good c.2) → good otherwise →
    good (.choice cases otherwise)
  check : ∀ {field schema}, good schema → good (.check field schema)
  checks : ∀ {statements}, (∀ s ∈ statements, good s) → good (.checks statements)

/-- The texts that the writer writes as they are. -/
def fixedTexts : List String := ["Buffer", "(value) => value !== undefined", "() => undefined"]

/-- The methods that every schema has. -/
def genericMethods : List String :=
  ["optional", "nullable", "default", "describe", "refine", "superRefine", "transform", "safeParse"]

/-- The methods of objects that say what becomes of properties that are not listed. -/
def policies : List String := ["strict", "passthrough"]

/-- Two properties of code, one of schemas and one of all that stands between the brackets of other
code, that are inherited from parts in the places where the writer puts them. Nothing is said about
names, about rules and values that a description brings along, or about unions without members. -/
structure Composed (schema part : Code → Prop) : Prop where
  ofSchema : ∀ {code}, schema code → part code
  raw : ∀ {text precedence}, text ∈ fixedTexts → part (.raw text precedence)
  access : ∀ segments, part (.raw (Reference.accessChain segments) .call)
  string : ∀ s, part (.literal (.str s))
  date : ∀ {a}, part a → part (.call "new Date" [a])
  call : ∀ {callee args}, Text.isDotted callee = true → callee ≠ "z.union" → (∀ a ∈ args, part a) →
    schema (.call callee args)
  method : ∀ {target m args}, m ∈ genericMethods → schema target → (∀ a ∈ args, part a) →
    schema (.method target m args)
  policy : ∀ {a m}, m ∈ policies → part a → schema (.method (.call "z.object" [a]) m [])
  union : ∀ {members}, members ≠ [] → (∀ m ∈ members, schema m) → schema (Code.union members)
  object : ∀ {properties}, (∀ p ∈ properties, part p.2) → part (.object properties)
  record : ∀ {fields}, (∀ f ∈ fields, part f.2) → part (.record fields)
  success : ∀ {negated test}, part test → part (.success negated test)
  choice : ∀ {cases otherwise}, (∀ c ∈ cases, part c.1 ∧ part c.2) → part otherwise →
    part (.choice cases otherwise)
  check : ∀ {field schema}, part schema → part (.check field schema)
  checks : ∀ {statements}, (∀ s ∈ statements, part s) → part (.checks statements)

/-- Two such properties that do not depend on values and on the number of members of a union. -/
structure Sorted (schema part : Code → Prop) : Prop extends Composed schema part where
  literal : ∀ v, part (.literal v)
  exclusion : ∀ values, part (.exclusion values)
  emptyUnion : schema (Code.union [])

/-- A union is its only member, or a call with all of them. -/
theorem union_cases {P : Code → Prop} {members : List Code} (hone : ∀ m, members = [m] → P m)
    (hmany : (∀ m, members ≠ [m]) → P (.call "z.union" [.array members])) :
    P (Code.union members) := by
  unfold Code.union
  split
  · exact hone _ rfl
  · rename_i hmembers
    exact hmany hmembers

namespace Closed

variable {good : Code → Prop} (h : Closed good)
include h

theorem call_one {callee : String} {a : Code} (ha : good a) : good (.call callee [a]) :=
  h.call fun _ hb => List.mem_singleton.1 hb ▸ ha

theorem union {members : List Code} (hm : ∀ m ∈ members, good m) : good (Code.union members) :=
  union_cases (fun m h => hm m (by simp [h])) fun _ => h.call_one (h.array hm)

/-- What is inherited everywhere is inherited in particular places. -/
theorem sorted : Sorted good good where
  ofSchema := id
  raw _ := h.raw _ _
  access _ := h.raw _ _
  string _ := h.literal _
  date := h.call_one
  call _ _ := h.call
  method _ := h.method
  policy _ ha := h.method (h.call_one ha) (by simp)
  union _ := h.union
  object := h.object
  record := h.record
  success := h.success
  choice := h.choice
  check := h.check
  checks := h.checks
  literal := h.literal
  exclusion := h.exclusion
  emptyUnion := h.union (by simp)

theorem composed : Composed good good := h.sorted.toComposed

theorem chainAll {target : Code} {calls : List Call} (ht : good target)
    (hc : ∀ c ∈ calls, ∀ a ∈ c.args, good a) : good (target.chainAll calls) := by
  induction calls generalizing target with
  | nil => exact ht
  | cons c calls ih =>
    exact ih (h.method ht (hc c (by simp))) fun c' hc' => hc c' (by simp [hc'])

end Closed

/-- Nothing is asked of the code. -/
theorem Closed.trivial : Closed fun _ => True := by
  constructor <;> intros <;> exact True.intro

namespace Composed

variable {schema part : Code → Prop} (h : Composed schema part)
include h

theorem call_one {callee : String} (hd : Text.isDotted callee = true) (hu : callee ≠ "z.union")
    {a : Code} (ha : part a) : schema (.call callee [a]) :=
  h.call hd hu fun _ hb => List.mem_singleton.1 hb ▸ ha

theorem chain {target : Code} {m : String} {args : List Code} (hm : m ∈ genericMethods)
    (ht : schema target) (ha : ∀ a ∈ args, part a) : schema (target.chain ⟨m, args⟩) :=
  h.method hm ht ha

theorem chain_bare {target : Code} {m : String} (hm : m ∈ genericMethods) (ht : schema target) :
    schema (target.chain ⟨m, []⟩) := h.chain hm ht (by simp)

theorem chain_one {target a : Code} {m : String} (hm : m ∈ genericMethods) (ht : schema target)
    (ha : part a) : schema (target.chain ⟨m, [a]⟩) :=
  h.chain hm ht fun _ hb => List.mem_singleton.1 hb ▸ ha

theorem exactly {v : Value} (hv : part (.literal v)) : schema (Code.exactly v) := by
  unfold Code.exactly
  split
  · exact h.call (by decide) (by decide) (by simp)
  · exact h.call_one (by decide) (by decide) hv

theorem absent : schema Code.absent := h.call (by decide) (by decide) (by simp)

theorem record_one {field : String × Code} (hf : part field.2) : part (.record [field]) :=
  h.record fun _ hm => List.mem_singleton.1 hm ▸ hf

theorem message (text : String) : part (Code.message text) := h.record_one (h.string _)

theorem base (kind : Kind) {code : Code} (hb : Code.base? kind = some code) : schema code := by
  cases kind <;> simp only [Code.base?, Option.some.injEq, reduceCtorEq] at hb
  all_goals subst hb
  case binary => exact h.call_one (by decide) (by decide) (h.raw (by simp [fixedTexts]))
  all_goals exact h.call (by decide) (by decide) (by simp)

end Composed

end Code

end Schemata
