import Schemata.Proofs.CutShort
import Schemata.Proofs.Reached
/-!
Options that only forbid, and options that only concern the listing.

Switching off predicates or dropped values never changes a result: a compilation gives what it gives
with the switch on, or it is refused because of a feature that needs the switch. Whether the code is a
module and whether declarations come with types is decided when everything is written already.

Component: the options, `Options`. Main results:
- `compile_report` — compilers that forbid the same things report the same;
- `compile_switches` — what each switch can change about an outcome.
-/

namespace Schemata

/-- A failure says that a feature is not supported which needs a switch. -/
def Refuses (needs : Feature → Bool) (failure : Failure) : Prop :=
  ∃ feature path, needs feature = true ∧ failure = .rejected ⟨.unsupported feature, path⟩

theorem gate_off (needs : Feature → Bool) (on : Bool) : Gate (Refuses needs) needs false on :=
  .inr ⟨rfl, fun feature path hneeds => ⟨feature, path, hneeds, rfl⟩⟩

theorem Listing.text_congr {options options' : Options}
    (hmodule : options.asModule = options'.asModule)
    (haliases : options.typeAliases = options'.typeAliases) :
    Listing.text options = Listing.text options' := by
  funext top declared name?
  simp only [Listing.text, Listing.blocks, Listing.topBlock, Listing.constant, hmodule, haliases]

/-- What a result says besides the code. -/
def Result.report (r : Result) : List String × List Diagnostic := (r.declarations, r.diagnostics)

namespace Compiler

variable {stops : Failure → Prop} {c c' : Compiler}

/-- With the same limit, descriptions are read alike. -/
theorem toNode_congr (h : c.options.maxDepth = c'.options.maxDepth) (description : Description) :
    c.toNode description = c'.toNode description := by
  cases description with
  | tree raw => simp only [toNode, h]
  | node n => rfl

/-- A compiler that allows less than another one and lists its code alike. -/
structure Narrows (stops : Failure → Prop) (c c' : Compiler) : Prop where
  setting : c.setting.Narrows stops c'.setting
  asModule : c.options.asModule = c'.options.asModule
  typeAliases : c.options.typeAliases = c'.options.typeAliases
  maxDepth : c.options.maxDepth = c'.options.maxDepth ∨ c.options.maxDepth ≤ c'.options.maxDepth ∧
    ∀ path, stops (.rejected ⟨.tooDeep c.options.maxDepth, path⟩)

theorem compileNode_cutShort (h : Narrows stops c c') (node : Node) :
    Outcome.CutShort stops (c.compileNode node) (c'.compileNode node) := by
  have hlevels : c.options.maxDepth = c'.options.maxDepth ∧
        c.options.maxDepth = c'.options.maxDepth ∨
      c.options.maxDepth ≤ c'.options.maxDepth ∧
        ∀ path, stops (.rejected ⟨.tooDeep c.options.maxDepth, path⟩) :=
    h.maxDepth.imp_left fun heq => ⟨heq, heq⟩
  apply (Writing.write_cutShort h.setting node hlevels {}).bind
  intro r
  rw [Listing.text_congr h.asModule h.typeAliases]
  exact .refl _

theorem compile_cutShort (h : Narrows stops c c')
    (hdepth : c.options.maxDepth = c'.options.maxDepth) (description : Description) :
    Outcome.CutShort stops (c.compile description) (c'.compile description) := by
  unfold compile
  rw [toNode_congr hdepth]
  apply (Outcome.CutShort.refl _).bind
  intro node
  exact compileNode_cutShort h node

/-- Compilers that forbid the same things report the same, however they list their code. -/
theorem compile_report (h : c.setting.Narrows (fun _ => False) c'.setting)
    (hdepth : c.options.maxDepth = c'.options.maxDepth) (description : Description) :
    (c.compile description).map Result.report = (c'.compile description).map Result.report := by
  have hwrite : ∀ node, Writing.write c.setting c.options.maxDepth node {} =
      Writing.write c'.setting c'.options.maxDepth node {} := by
    intro node
    rcases Writing.write_cutShort h node (.inl ⟨hdepth, hdepth⟩) {} with heq | ⟨e, he, -⟩
    · exact heq
    · cases he
  unfold compile compileNode
  rw [toNode_congr hdepth]
  cases (c'.toNode description).toWritten with
  | error e => rfl
  | ok node =>
    simp only [Outcome.ok_bind, hwrite node]
    cases Writing.write c'.setting c'.options.maxDepth node {} with
    | error e => rfl
    | ok r => rfl

/-- The switches for predicates and for dropped values only refuse. A run with the switch off has the
outcome of the run with the switch on, or it is refused for a feature that needs the switch. The other
two switches change neither the errors nor what is declared and noted. -/
theorem compile_switches (rules : Rulebook) (o : Options) (description : Description) :
    let run (o : Options) : Written Result := compile ⟨o, rules⟩ description
    Outcome.CutShort (Refuses Feature.needsRefinements) (run { o with refinements := false })
        (run { o with refinements := true }) ∧
      Outcome.CutShort (Refuses Feature.needsStrip) (run { o with strip := false })
        (run { o with strip := true }) ∧
      ∀ asModule typeAliases,
        (run { o with asModule := asModule, typeAliases := typeAliases }).map Result.report =
          (run o).map Result.report := by
  refine ⟨?_, ?_, ?_⟩
  · apply compile_cutShort
    · exact ⟨⟨rfl, rfl, rfl, gate_off _ _, .inl rfl⟩, rfl, rfl, .inl rfl⟩
    · rfl
  · apply compile_cutShort
    · exact ⟨⟨rfl, rfl, rfl, .inl rfl, gate_off _ _⟩, rfl, rfl, .inl rfl⟩
    · rfl
  · intro asModule typeAliases
    apply compile_report
    · exact ⟨rfl, rfl, rfl, .inl rfl, .inl rfl⟩
    · rfl

/-- That any value has to be there is said by a predicate. -/
example : compile ⟨{ refinements := false }, Rulebook.builtin⟩ (.tree (.map
    [(.str "type", .str "any"), (.str "flags", .map [(.str "presence", .str "required")])])) =
      .error (.rejected ⟨.unsupported .requiredAny, .root⟩) := rfl

end Compiler

end Schemata
