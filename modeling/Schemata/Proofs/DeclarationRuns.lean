import Schemata.Proofs.DeclarationOrder
/-!
Declarations over many requests.

Names are declared by requests that come one after the other, and a request that is refused does not
end the run. The first request for a name decides: its body and its path are kept, a later request for
the name is refused exactly if its body is written differently, and no later request moves or changes
what is there.

Component: the declarations by themselves, `Declarations.declare`. Main results:
- `run_records` — the declarations are the first requests for each name;
- `answers_run` — the answer to a request depends on the first request for its name;
- `run_first_decides` — both over any run of requests.
-/

namespace Schemata

namespace Declarations

/-! ## Requests -/

/-- Makes a request: the declarations afterwards, and the answer. A request that is refused is over,
and the declarations are those from before. -/
def request (d : Declarations) (r : Declaration) : Declarations × Checked Code :=
  match d.declare r.name r.body r.path with
  | .ok (code, after) => (after, .ok code)
  | .error e => (d, .error e)

def after (d : Declarations) (requests : List Declaration) : Declarations :=
  requests.foldl (fun d r => (d.request r).1) d

def answers (d : Declarations) : List Declaration → List (Checked Code)
  | [] => []
  | r :: rest => (d.request r).2 :: answers (d.request r).1 rest

/-- The declarations that some requests lead to from the start. -/
def run (requests : List Declaration) : Declarations := after {} requests

/-- The first of some requests for a name. -/
def firstFor? (requests : List Declaration) (name : String) : Option Declaration :=
  requests.find? fun r => r.name == name

/-- The text of the body that was first requested for a name. -/
def firstText (requests : List Declaration) (name : String) : String :=
  ((firstFor? requests name).map fun first => first.body.text).getD ""

theorem after_append (d : Declarations) (front back : List Declaration) :
    d.after (front ++ back) = (d.after front).after back := List.foldl_append

/-- The answer to a request comes from the declarations that the requests before it lead to. -/
theorem answers_getElem? (d : Declarations) (requests : List Declaration) (i : Nat) :
    (d.answers requests)[i]? =
      requests[i]?.map fun r => ((d.after (requests.take i)).request r).2 := by
  induction requests generalizing d i with
  | nil => simp [answers]
  | cons r rest ih =>
    cases i with
    | zero => rfl
    | succ i => exact ih (d.request r).1 i

theorem answers_append (d : Declarations) (front back : List Declaration) :
    d.answers (front ++ back) = d.answers front ++ (d.after front).answers back := by
  induction front generalizing d with
  | nil => rfl
  | cons r rest ih => exact congrArg _ (ih (d.request r).1)

theorem length_answers (d : Declarations) (requests : List Declaration) :
    (d.answers requests).length = requests.length := by
  induction requests generalizing d with
  | nil => rfl
  | cons r rest ih => exact congrArg (· + 1) (ih (d.request r).1)

theorem request_of_error {d : Declarations} {r : Declaration} {e : CompileError}
    (h : (d.request r).2 = .error e) : (d.request r).1 = d := by
  unfold request at h ⊢
  split at h
  · cases h
  · rfl

/-! ## The first request for a name -/

/-- The answer to a request, given the first request for its name. -/
def answerTo (first r : Declaration) : Checked Code :=
  if first.body.text = r.body.text then .ok (.name r.name)
  else .error ⟨.conflict r.name first.path, r.path⟩

theorem request_of_none {d : Declarations} {r : Declaration} (h : d.find? r.name = none) :
    d.request r = (⟨d.entries ++ [r]⟩, .ok (.name r.name)) := by
  simp only [request, declare, h]

/-- A request for a name that is declared changes nothing, whatever the answer is. -/
theorem request_of_some {d : Declarations} {r first : Declaration} (h : d.find? r.name = some first) :
    d.request r = (d, answerTo first r) := by
  simp only [request, declare, h, answerTo]
  by_cases htext : first.body.text = r.body.text
  · simp only [if_pos htext]
  · simp only [if_neg htext]

theorem firstFor?_append (front back : List Declaration) (name : String) :
    firstFor? (front ++ back) name = (firstFor? front name).or (firstFor? back name) :=
  List.find?_append

/-- The declarations are the first requests for each name, in order. -/
structure Records (requests : List Declaration) (d : Declarations) : Prop where
  find : ∀ name, d.find? name = firstFor? requests name
  names : d.names = (requests.map Declaration.name).eraseDups
  first : ∀ entry ∈ d.entries, firstFor? requests entry.name = some entry

namespace Records

variable {requests : List Declaration} {d : Declarations}

theorem mem_names_iff (h : Records requests d) {name : String} :
    name ∈ requests.map Declaration.name ↔ d.find? name ≠ none := by
  rw [← List.mem_eraseDups, ← h.names, ← contains_iff, contains, Option.isSome_iff_ne_none]

/-- One more request keeps the first requests, and adds itself if it is one of them. -/
theorem request (h : Records requests d) (r : Declaration) :
    Records (requests ++ [r]) (d.request r).1 := by
  have hfirst : ∀ {name : String} {first : Declaration}, firstFor? requests name = some first →
      firstFor? (requests ++ [r]) name = some first := by
    intro name first hname
    rw [firstFor?_append, hname, Option.some_or]
  have hnames : ((requests ++ [r]).map Declaration.name).eraseDups =
      d.names ++ (if r.name ∈ requests.map Declaration.name then [] else [r.name]) := by
    rw [List.map_append, List.eraseDups_append, h.names, List.removeAll, List.map_singleton]
    by_cases hmem : r.name ∈ requests.map Declaration.name
    · rw [if_pos hmem, List.filter_cons_of_neg (by simpa using hmem)]
      rfl
    · rw [if_neg hmem, List.filter_cons_of_pos (by simpa using hmem)]
      rfl
  cases hfind : d.find? r.name with
  | some first =>
    rw [request_of_some hfind]
    refine ⟨fun name => ?_, ?_, fun entry hentry => hfirst (h.first entry hentry)⟩
    · -- Only the name of the request could be found anew, and it was there before.
      rw [h.find, firstFor?_append]
      cases hname : firstFor? requests name with
      | some _ => rfl
      | none =>
        have hne : r.name ≠ name := by
          rintro rfl
          rw [← h.find, hfind] at hname
          cases hname
        simp [firstFor?, hne]
    · rw [hnames, if_pos (h.mem_names_iff.2 (by simp [hfind])), List.append_nil]
  | none =>
    rw [request_of_none hfind]
    refine ⟨fun name => ?_, ?_, fun entry hentry => ?_⟩
    · rw [firstFor?_append, ← h.find]
      exact List.find?_append
    · rw [hnames, if_neg fun hmem => h.mem_names_iff.1 hmem hfind]
      simp [Declarations.names]
    · rcases List.mem_append.1 hentry with hentry | hentry
      · exact hfirst (h.first entry hentry)
      · obtain rfl := List.mem_singleton.1 hentry
        rw [firstFor?_append, ← h.find, hfind]
        simp [firstFor?]

end Records

/-- Whatever is requested, the declarations are the first requests for each name. -/
theorem run_records (requests : List Declaration) : Records requests (run requests) := by
  have hafter : ∀ (back front : List Declaration) (d : Declarations), Records front d →
      Records (front ++ back) (d.after back) := by
    intro back
    induction back with
    | nil => exact fun front d h => by simpa [after] using h
    | cons r rest ih =>
      intro front d h
      rw [List.append_cons]
      exact ih _ _ (h.request r)
  exact hafter requests [] {} ⟨fun name => rfl, rfl, by simp⟩

/-- The answer to a request depends on the first request for its name in the whole run. -/
theorem answers_run {requests : List Declaration} {i : Nat} {r : Declaration}
    (h : requests[i]? = some r) : ∃ first, firstFor? requests r.name = some first ∧
      (answers {} requests)[i]? = some (answerTo first r) := by
  have hsplit : requests = requests.take i ++ r :: requests.drop (i + 1) := by
    obtain ⟨hi, rfl⟩ := List.getElem?_eq_some_iff.1 h
    rw [List.getElem_cons_drop, List.take_append_drop]
  have hfind := (run_records (requests.take i)).find r.name
  rw [answers_getElem?, h, Option.map_some]
  cases hfront : firstFor? (requests.take i) r.name with
  | some first =>
    refine ⟨first, ?_, ?_⟩
    · rw [hsplit, firstFor?_append, hfront, Option.some_or]
    · exact congrArg (fun p => some p.2) (request_of_some (hfind.trans hfront))
  | none =>
    refine ⟨r, ?_, ?_⟩
    · rw [hsplit, firstFor?_append, hfront, Option.none_or]
      simp [firstFor?]
    · rw [answerTo, if_pos rfl]
      exact congrArg (fun p => some p.2) (request_of_none (hfind.trans hfront))

/-- The names that are declared, and the texts of their bodies, are those of the first requests. -/
theorem items_run (requests : List Declaration) : (run requests).items =
    (requests.map Declaration.name).eraseDups.map fun name => (name, firstText requests name) := by
  have h := run_records requests
  rw [← h.names, names, List.map_map, items]
  refine List.map_congr_left fun entry hentry => ?_
  simp [firstText, h.first entry hentry]

/-- What is known of the request at one place of a run if it is refused. -/
structure Refused (requests : List Declaration) (i : Nat) (first r : Declaration) (e : CompileError) :
    Prop where
  cause : e.cause = .conflict r.name first.path
  /-- The error names the place of the first request. -/
  reason : e.reason = "className '" ++ r.name ++ "' is already declared at " ++ first.path.label
    ++ " with a different schema"
  path : e.path = r.path
  /-- The request leaves the declarations as they are. -/
  unchanged : run (requests.take (i + 1)) = run (requests.take i)
  /-- Without the request, the run ends with the same declarations. -/
  skipped : run (requests.eraseIdx i) = run requests
  /-- Without the request, all others have the same answers. -/
  others : answers {} (requests.eraseIdx i) = (answers {} requests).eraseIdx i

theorem refused_of_answers {requests : List Declaration} {i : Nat} {first r : Declaration}
    {e : CompileError} (hr : requests[i]? = some r)
    (hanswer : (answers {} requests)[i]? = some (answerTo first r)) (he : answerTo first r = .error e) :
    Refused requests i first r e := by
  obtain ⟨hi, rfl⟩ := List.getElem?_eq_some_iff.1 hr
  have herror : e = ⟨.conflict requests[i].name first.path, requests[i].path⟩ := by
    unfold answerTo at he
    split at he
    · cases he
    · exact (Except.error.inj he).symm
  -- The declarations at that time are left alone, and so is everything that comes after.
  have hstep : ((run (requests.take i)).request requests[i]).1 = run (requests.take i) := by
    rw [answers_getElem?, hr, Option.map_some, he] at hanswer
    exact request_of_error (Option.some.inj hanswer)
  have hsplit : requests = requests.take i ++ requests[i] :: requests.drop (i + 1) := by
    rw [List.getElem_cons_drop, List.take_append_drop]
  have hafter : run requests = (run (requests.take i)).after (requests.drop (i + 1)) := by
    conv => lhs; rw [hsplit, run, after_append]
    exact congrArg (after · _) hstep
  have hlength : (answers {} (requests.take i)).length = i := by
    rw [length_answers, List.length_take_of_le (Nat.le_of_lt hi)]
  subst herror
  refine ⟨rfl, rfl, rfl, ?_, ?_, ?_⟩
  · rw [List.take_add_one, hr, run, after_append]
    exact hstep
  · rw [hafter, List.eraseIdx_eq_take_drop_succ, run, after_append]
    rfl
  · have hanswers : answers {} requests = answers {} (requests.take i) ++
        ((run (requests.take i)).request requests[i]).2 ::
          answers (run (requests.take i)) (requests.drop (i + 1)) := by
      conv => lhs; rw [hsplit, answers_append]
      exact congrArg (fun d => _ ++ _ :: answers d _) hstep
    rw [hanswers, List.eraseIdx_eq_take_drop_succ, answers_append,
      List.eraseIdx_append_of_length_le (Nat.le_of_eq hlength), hlength, Nat.sub_self,
      List.eraseIdx_cons_zero]
    rfl

/-- The first request for a name decides. After any requests, refused ones among them, the declared
names are those that were requested, in the order of their first requests, and each has the body of its
first request. A request is refused exactly if the first request for its name has a body that is
written differently; the error names the place of that first request, and a request that is refused
changes nothing. -/
theorem run_first_decides (requests : List Declaration) :
    (run requests).names = (requests.map Declaration.name).eraseDups ∧
      (run requests).items = (requests.map Declaration.name).eraseDups.map
        (fun name => (name, firstText requests name)) ∧
      ∀ (i : Nat) (r : Declaration), requests[i]? = some r →
        ∃ first answer, firstFor? requests r.name = some first ∧
          (answers {} requests)[i]? = some answer ∧
          (answer = .ok (.name r.name) ↔ first.body.text = r.body.text) ∧
          ((∃ e, answer = .error e) ↔ first.body.text ≠ r.body.text) ∧
          ∀ e, answer = .error e → Refused requests i first r e := by
  refine ⟨(run_records requests).names, items_run requests, fun i r hr => ?_⟩
  obtain ⟨first, hfirst, hanswer⟩ := answers_run hr
  refine ⟨first, answerTo first r, hfirst, hanswer, ?_, ?_, fun e he =>
    refused_of_answers hr hanswer he⟩
  · by_cases htext : first.body.text = r.body.text <;> simp [answerTo, htext]
  · by_cases htext : first.body.text = r.body.text <;> simp [answerTo, htext]

/-- Two names, the first of them requested again with another body and then with its own. -/
theorem run_first_decides_repeated :
    let requests : List Declaration :=
      [⟨"User", .call "z.string" [], ⟨"", [.key "keys", .key "a"]⟩⟩,
        ⟨"Age", .call "z.number" [], ⟨"", [.key "keys", .key "b"]⟩⟩,
        ⟨"User", .call "z.date" [], ⟨"", [.key "items", .index 0]⟩⟩,
        ⟨"User", .raw "z.string()" .call, .root⟩]
    requests[2]? = some ⟨"User", .call "z.date" [], ⟨"", [.key "items", .index 0]⟩⟩ ∧
      (run requests).names = ["User", "Age"] ∧
      (run requests).items = [("User", "z.string()"), ("Age", "z.number()")] ∧
      ∃ e, (answers {} requests)[2]? = some (.error e) ∧
        e.reason = "className 'User' is already declared at keys.a with a different schema" ∧
        run (requests.eraseIdx 2) = run requests := by
  intro requests
  obtain ⟨hnames, hitems, hanswers⟩ := run_first_decides requests
  obtain ⟨first, answer, hfirst, hanswer, -, hrefused, hall⟩ := hanswers 2 _ rfl
  cases hfirst
  obtain ⟨e, rfl⟩ := hrefused.2 (by decide)
  have he := hall e rfl
  exact ⟨rfl, hnames, hitems, e, hanswer, he.reason.trans rfl, he.skipped⟩

end Declarations

end Schemata
