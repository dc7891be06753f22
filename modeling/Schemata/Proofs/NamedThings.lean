import Mathlib.Data.List.Nodup
import Schemata.Named
/-!
Lists of things by name, as ordered maps.

Looking up a name finds what was set last under it, and the names stand in the order in which they were
first set. Setting names one after the other lays one list over another.

Component: lists of things by name, `Named`. Main results:
- `names_putAll` — names that are there keep their places, the others follow in order;
- `lookup_putAll` — what was set last is found.
-/

namespace Schemata

namespace Named

variable {α : Type}

def names (l : Named α) : List String := l.map Prod.fst

theorem lookup_cons_ite (entry : String × α) (l : Named α) (name : String) :
    List.lookup name (entry :: l) = if name = entry.1 then some entry.2 else List.lookup name l := by
  obtain ⟨n, b⟩ := entry
  by_cases h : name = n
  · simp [h]
  · simp [List.lookup_cons, h, beq_false_of_ne h]

theorem lookup_eq_none {l : Named α} {name : String} (h : name ∉ names l) :
    List.lookup name l = none := by
  induction l with
  | nil => rfl
  | cons entry rest ih =>
    simp only [names, List.map_cons, List.mem_cons, not_or] at h
    rw [lookup_cons_ite, if_neg h.1, ih h.2]

theorem names_put (l : Named α) (name : String) (a : α) :
    names (put l name a) = if name ∈ names l then names l else names l ++ [name] := by
  induction l with
  | nil => rfl
  | cons head rest ih =>
    obtain ⟨n, b⟩ := head
    have hcons : ∀ (c : α) (l : Named α), names ((n, c) :: l) = n :: names l := fun _ _ => rfl
    rw [put]
    by_cases hn : n = name
    · rw [if_pos hn, hcons, hcons, hn, if_pos List.mem_cons_self]
    · rw [if_neg hn, hcons, hcons, ih]
      by_cases hmem : name ∈ names rest
      · rw [if_pos hmem, if_pos (List.mem_cons_of_mem n hmem)]
      · rw [if_neg hmem, if_neg (by simp [Ne.symm hn, hmem]), List.cons_append]

theorem lookup_put (l : Named α) (name other : String) (a : α) :
    List.lookup other (put l name a) = if other = name then some a else List.lookup other l := by
  induction l with
  | nil => exact lookup_cons_ite (name, a) [] other
  | cons head rest ih =>
    obtain ⟨n, b⟩ := head
    rw [put, lookup_cons_ite]
    by_cases hn : n = name
    · subst hn
      rw [if_pos rfl, lookup_cons_ite]
      by_cases ho : other = n <;> simp [ho]
    · rw [if_neg hn, lookup_cons_ite, ih]
      by_cases ho : other = n
      · simp [ho, hn]
      · simp [ho]

/-- Names that are set one after the other, each of them once: names that are there keep their places,
the others follow in the order in which they are set. -/
theorem names_putAll {l new : Named α} (h : (names new).Nodup) :
    names (new.foldl (fun merged entry => put merged entry.1 entry.2) l) =
      names l ++ (names new).filter (· ∉ names l) := by
  induction new generalizing l with
  | nil => exact (List.append_nil _).symm
  | cons entry rest ih =>
    obtain ⟨hentry, hrest⟩ := List.nodup_cons.1 h
    have hcons : names (entry :: rest) = entry.1 :: names rest := rfl
    rw [List.foldl_cons, ih hrest, names_put, hcons]
    by_cases hmem : entry.1 ∈ names l
    · rw [if_pos hmem, List.filter_cons_of_neg (by simpa using hmem)]
    · rw [if_neg hmem, List.filter_cons_of_pos (by simpa using hmem), List.append_assoc,
        List.singleton_append]
      congr 2
      -- The name that was just added is not set again.
      refine List.filter_congr fun name hname => ?_
      have hne : name ≠ entry.1 := fun heq => hentry (heq ▸ hname)
      simp [hne]

theorem nodup_putAll {l new : Named α} (hl : (names l).Nodup) (hnew : (names new).Nodup) :
    (names (new.foldl (fun merged entry => put merged entry.1 entry.2) l)).Nodup := by
  rw [names_putAll hnew, List.nodup_append']
  refine ⟨hl, hnew.filter _, fun name hname hnamed => ?_⟩
  exact of_decide_eq_true (List.mem_filter.1 hnamed).2 hname

theorem lookup_putAll {l new : Named α} (h : (names new).Nodup) (name : String) :
    List.lookup name (new.foldl (fun merged entry => put merged entry.1 entry.2) l) =
      (List.lookup name new <|> List.lookup name l) := by
  induction new generalizing l with
  | nil => rfl
  | cons entry rest ih =>
    obtain ⟨hentry, hrest⟩ := List.nodup_cons.1 h
    rw [List.foldl_cons, ih hrest, lookup_put, lookup_cons_ite]
    by_cases hname : name = entry.1
    · rw [if_pos hname, if_pos hname, hname, lookup_eq_none hentry]
      rfl
    · rw [if_neg hname, if_neg hname]

end Named

end Schemata
