import Automation.Proofs.Graph.Cycle

/-!
# The search for cycles, turn by turn

The search takes turns: it takes a root, tries an edge, or is done with an id of which all edges have
been tried.  `turn` is one of them, and it is the same as going on with the search (`answer_of_turn`).
Each turn lowers what is left to do (`left_of_turn`), so after twice as many turns as there are edges
and roots the search has come to its end (`turns_stopped`), whatever the edges and the roots.

`Flow.findCycle?_exact` puts this together with what the search finds.
-/

namespace Automation.Graph

/-- Where a search from some roots stands: the roots that have not been taken, the path from the one
that was taken last, and what is done. -/
structure Stage where
  roots : List String
  path : List Visit
  done : List String

namespace Stage

/-- The id at which the edge that comes next closes a cycle. -/
def closing? (s : Stage) : Option String :=
  match s.path with
  | (_, next :: _) :: _ => if s.path.any fun v => v.1 = next then some next else none
  | _ => none

/-- One turn of the search.  There is none where a cycle closes and where nothing is left to do. -/
def turn (edges : List Edge) : Stage → Option Stage
  | ⟨[], [], _⟩ => none
  | ⟨root :: roots, [], done⟩ =>
    if done.contains root then some ⟨roots, [], done⟩
    else some ⟨roots, [(root, targets edges root)], done⟩
  | ⟨roots, (id, []) :: path, done⟩ => some ⟨roots, path, id :: done⟩
  | ⟨roots, (id, next :: rest) :: path, done⟩ =>
    if (id, next :: rest) :: path |>.any fun v => v.1 = next then none
    else if done.contains next then some ⟨roots, (id, rest) :: path, done⟩
    else some ⟨roots, (next, targets edges next) :: (id, rest) :: path, done⟩

/-- Where a search stands after so many turns, or after fewer if it has come to its end. -/
def turns (edges : List Edge) : Nat → Stage → Stage
  | 0, s => s
  | n + 1, s =>
    match s.turn edges with
    | some s' => turns edges n s'
    | none => s

/-- What the search answers if it goes on from here. -/
def answer (edges : List Edge) (s : Stage) : Option String :=
  match search edges s.path s.done with
  | (some id, _) => some id
  | (none, done) => searchRoots edges s.roots done

def left (edges : List Edge) (s : Stage) : Nat := weight edges s.path s.done + 2 * s.roots.length

variable {edges : List Edge} {s s' : Stage}

theorem answer_of_turn (h : s.turn edges = some s') : s'.answer edges = s.answer edges := by
  unfold turn at h
  split at h
  case h_1 => cases h
  case h_2 root roots done =>
    split at h
    case isTrue hdone =>
      obtain rfl := Option.some.inj h
      simp only [answer, search, searchRoots, if_pos hdone]
    case isFalse hdone =>
      obtain rfl := Option.some.inj h
      -- A root that is not done yet is where the search of the path starts, and the rest is for later.
      have hroots := searchRoots.eq_2 edges done root roots
      rw [if_neg hdone] at hroots
      simp only [answer, search]
      exact hroots.symm
  case h_3 roots id path done =>
    obtain rfl := Option.some.inj h
    simp only [answer, search]
  case h_4 roots id next rest path done =>
    split at h
    case isTrue => cases h
    case isFalse hback =>
      split at h
      case isTrue hdone =>
        obtain rfl := Option.some.inj h
        simp only [answer]
        rw [search.eq_3, if_neg hback, if_pos hdone]
      case isFalse hdone =>
        obtain rfl := Option.some.inj h
        simp only [answer]
        rw [search.eq_3, if_neg hback, if_neg hdone]

theorem left_of_turn (h : s.turn edges = some s') : s'.left edges < s.left edges := by
  unfold turn at h
  split at h
  case h_1 => cases h
  case h_2 root roots done =>
    split at h
    case isTrue hdone =>
      obtain rfl := Option.some.inj h
      simp only [left, List.length_cons]
      omega
    case isFalse hdone =>
      obtain rfl := Option.some.inj h
      have hunmet := @length_unmet_cons edges done root (by simpa using hdone)
      simp only [left, weight, untried, List.map_cons, List.map_nil, List.cons_append,
        List.nil_append, List.length_cons, List.length_nil, length_targets]
      omega
  case h_3 roots id path done =>
    obtain rfl := Option.some.inj h
    exact Nat.add_lt_add_right (weight_pop edges id path done) _
  case h_4 roots id next rest path done =>
    split at h
    case isTrue => cases h
    case isFalse hback =>
      split at h
      case isTrue hdone =>
        obtain rfl := Option.some.inj h
        exact Nat.add_lt_add_right (weight_tried edges id next rest path done) _
      case isFalse hdone =>
        obtain rfl := Option.some.inj h
        exact Nat.add_lt_add_right (weight_push id rest (new_of_not_any hback hdone)) _

/-- Where there is no turn, the search answers with the id at which a cycle closes, if one does. -/
theorem closing?_of_stopped (h : s.turn edges = none) : s.closing? = s.answer edges := by
  unfold turn at h
  split at h
  case h_1 => simp only [closing?, answer, search, searchRoots]
  case h_2 => split at h <;> cases h
  case h_3 => cases h
  case h_4 roots id next rest path done =>
    split at h
    case isTrue hback =>
      simp only [closing?, answer, search, if_pos hback]
    case isFalse => split at h <;> cases h

/-- After as many turns as there is left to do the search has stopped, and has found its answer. -/
theorem turns_stopped {n : Nat} (hn : s.left edges ≤ n) :
    (turns edges n s).turn edges = none ∧ (turns edges n s).closing? = s.answer edges := by
  induction n generalizing s with
  | zero =>
    -- With nothing left to do there is no turn, since a turn leaves less.
    cases hturn : s.turn edges with
    | none => exact ⟨hturn, closing?_of_stopped hturn⟩
    | some s' =>
      have hless := left_of_turn hturn
      omega
  | succ n ih =>
    rw [turns]
    cases hturn : s.turn edges with
    | none => exact ⟨hturn, closing?_of_stopped hturn⟩
    | some s' =>
      have hless := left_of_turn hturn
      obtain ⟨hstopped, hanswer⟩ := @ih s' (by omega)
      exact ⟨hstopped, hanswer.trans (answer_of_turn hturn)⟩

theorem left_start (roots : List String) :
    left edges ⟨roots, [], []⟩ = 2 * edges.length + 2 * roots.length := by
  simp [left, weight, untried, unmet]

theorem answer_start (roots : List String) :
    answer edges ⟨roots, [], []⟩ = searchRoots edges roots [] := by
  simp only [answer, search]

end Stage

end Automation.Graph

namespace Automation.Flow

open Automation.Graph

/-- The search for cycles comes to its end after at most twice as many turns as there are edges and
roots, on any edges and from any roots.  It finds an id exactly if some root leads to a cycle, and the
id that it finds lies on a cycle that a root leads to. -/
theorem findCycle?_exact (f : Flow) (roots : List String) :
    (let last := Stage.turns f.edges (2 * f.edges.length + 2 * roots.length) ⟨roots, [], []⟩
     last.turn f.edges = none ∧ last.closing? = f.findCycle? roots) ∧
      ((f.findCycle? roots).isSome ↔
        ∃ root ∈ roots, ∃ id, Reaches f.edges root id ∧ OnCycle f.edges id) ∧
      ∀ id, f.findCycle? roots = some id →
        OnCycle f.edges id ∧ ∃ root ∈ roots, Reaches f.edges root id := by
  refine ⟨?_, ?_, fun id hid => ?_⟩
  · have hleft : Stage.left f.edges ⟨roots, [], []⟩ ≤ 2 * f.edges.length + 2 * roots.length :=
      Nat.le_of_eq (Stage.left_start roots)
    have hstopped := Stage.turns_stopped hleft
    rwa [Stage.answer_start] at hstopped
  · rw [← Option.ne_none_iff_isSome, ne_eq, findCycle?_eq_none_iff]
    constructor
    · intro hsome
      push Not at hsome
      exact hsome
    · rintro ⟨root, hroot, id, hreaches, hcycle⟩ hnone
      exact hnone root hroot id hreaches hcycle
  · obtain ⟨root, hroot, hreaches, hcycle⟩ := onCycle_of_findCycle? hid
    exact ⟨hcycle, root, hroot, hreaches⟩

/-- A flow whose first edge leads to a circle of two. -/
def circling : Flow :=
  { Flow.new "circling" with edges := [.new "a" "b", .new "b" "c", .new "b" "c", .new "c" "b"] }

theorem findCycle?_exact_circling :
    circling.findCycle? ["nowhere", "a", "a"] = some "b" ∧ OnCycle circling.edges "b" ∧
      ∃ root ∈ ["nowhere", "a", "a"], Reaches circling.edges root "b" := by
  have hfound : circling.findCycle? ["nowhere", "a", "a"] = some "b" := by decide +kernel
  exact ⟨hfound, (findCycle?_exact circling ["nowhere", "a", "a"]).2.2 "b" hfound⟩

end Automation.Flow
