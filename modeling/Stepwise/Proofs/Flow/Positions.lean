/-
# Where actions stand in a flow

The position of an action is its index in its chain, from zero, behind the position of the
loop that has this chain for a body. Positions are compared number by number, and the position
of a loop comes before all positions in its body. In this order a flow is walked: an action,
then its body if it is a loop, then the actions after it.

Key definitions: `Chain.Position`, `Chain.nameAt?`, `Chain.uses`, `Chain.located`.

Key theorems: `Chain.mem_located_iff`, `Chain.pairwise_located`, `Chain.map_located`,
`Chain.count_allNames`.
-/
import Mathlib.Data.List.Lex
import Mathlib.Data.Set.Card
import Stepwise.Proofs.Flow.Names

namespace Stepwise

namespace Chain

/-- Where an action stands: its index in its chain, behind the indices of the loops around
it. -/
abbrev Position := List Nat

/-- The same position one action further on. -/
def Position.next : Position → Position
  | [] => []
  | i :: p => (i + 1) :: p

theorem Position.next_lt_next : ∀ {p q : Position}, p < q → p.next < q.next
  | _, [], h => absurd h (List.not_lt_nil _)
  | [], _ :: _, _ => List.nil_lt_cons _ _
  | i :: p, j :: q, h => by
    rw [List.cons_lt_cons_iff] at h
    rw [next, next, List.cons_lt_cons_iff]
    rcases h with hlt | ⟨rfl, hlt⟩
    · exact .inl (Nat.succ_lt_succ hlt)
    · exact .inr ⟨rfl, hlt⟩

/-- The name of the action at a position. -/
def nameAt? : Chain → Position → Option String
  | .step label _ _, [0] => some label.name
  | .loop label _ _ _, [0] => some label.name
  | .loop _ _ body _, 0 :: i :: p => body.nameAt? (i :: p)
  | .step _ _ rest, (i + 1) :: p => rest.nameAt? (i :: p)
  | .loop _ _ _ rest, (i + 1) :: p => rest.nameAt? (i :: p)
  | _, _ => none

/-- How many actions have a name. -/
noncomputable def uses (chain : Chain) (name : String) : Nat :=
  {p | chain.nameAt? p = some name}.ncard

/-- The names of all actions behind their positions, in the order in which a flow is
walked. -/
def located : Chain → List (Position × String)
  | .nil => []
  | .step label _ rest => ([0], label.name) :: rest.located.map fun e => (e.1.next, e.2)
  | .loop label _ body rest =>
    ([0], label.name) ::
      ((body.located.map fun e => (0 :: e.1, e.2)) ++
        rest.located.map fun e => (e.1.next, e.2))

theorem map_located : ∀ chain : Chain, chain.located.map (·.2) = chain.allNames
  | .nil => rfl
  | .step label task rest => by
    rw [located, allNames_step, ← map_located rest, List.map_cons, List.map_map]
    rfl
  | .loop label settings body rest => by
    rw [located, allNames_loop, ← map_located body, ← map_located rest, List.map_cons,
      List.map_append, List.map_map, List.map_map]
    rfl

example : Grid.chain.located =
    [([0], "rows"), ([0, 0], "cells"), ([0, 0, 0], "check"), ([1], "answer")] := rfl

/-! ### Every action is located once -/

theorem nameAt?_nil (chain : Chain) : chain.nameAt? [] = none := by
  cases chain <;> rfl

/-- The actions of a part of a chain, wherever the part is put. No action stands at the empty
position. -/
theorem mem_map_located_iff {part : Chain} {name : String}
    (h : ∀ q, (q, name) ∈ part.located ↔ part.nameAt? q = some name) (f : Position → Position)
    (p : Position) :
    (p, name) ∈ part.located.map (fun e => (f e.1, e.2)) ↔
      ∃ i q, p = f (i :: q) ∧ part.nameAt? (i :: q) = some name := by
  simp only [List.mem_map, Prod.exists, Prod.mk.injEq]
  constructor
  · rintro ⟨q, _, hmem, rfl, rfl⟩
    have hq := (h q).mp hmem
    cases q with
    | nil =>
      rw [nameAt?_nil] at hq
      contradiction
    | cons i q => exact ⟨i, q, rfl, hq⟩
  · rintro ⟨i, q, rfl, hq⟩
    exact ⟨i :: q, name, (h _).mpr hq, rfl, rfl⟩

/-- An action is located exactly where it stands. -/
theorem mem_located_iff : ∀ {chain : Chain} {p : Position} {name : String},
    (p, name) ∈ chain.located ↔ chain.nameAt? p = some name
  | .nil, p, name => by simp [located, nameAt?]
  | .step label task rest, p, name => by
    rw [located, List.mem_cons, mem_map_located_iff fun _ => mem_located_iff]
    match p with
    | [] | 0 :: _ :: _ | (_ + 1) :: _ => simp [nameAt?, Position.next]
    | [0] => simp [nameAt?, Position.next, eq_comm]
  | .loop label settings body rest, p, name => by
    rw [located, List.mem_cons, List.mem_append, mem_map_located_iff fun _ => mem_located_iff,
      mem_map_located_iff fun _ => mem_located_iff]
    match p with
    | [] | 0 :: _ :: _ | (_ + 1) :: _ => simp [nameAt?, Position.next]
    | [0] => simp [nameAt?, Position.next, eq_comm]

/-! ### The order of the walk -/

/-- The actions after the first one stand behind whatever starts with it. -/
theorem lt_of_mem_next {rest : Chain} {e : Position × String}
    (h : e ∈ rest.located.map fun e => (e.1.next, e.2)) (p : Position) : 0 :: p < e.1 := by
  obtain ⟨i, q, hp, -⟩ := (mem_map_located_iff (fun _ => mem_located_iff) _ e.1).mp h
  rw [hp, Position.next, List.cons_lt_cons_iff]
  exact .inl (Nat.succ_pos i)

theorem pairwise_next {rest : Chain} (h : rest.located.Pairwise (·.1 < ·.1)) :
    (rest.located.map fun e => (e.1.next, e.2)).Pairwise (·.1 < ·.1) :=
  List.pairwise_map.mpr (h.imp Position.next_lt_next)

/-- In the order of the walk the positions increase. -/
theorem pairwise_located : ∀ chain : Chain, chain.located.Pairwise (·.1 < ·.1)
  | .nil => .nil
  | .step label task rest =>
    List.pairwise_cons.mpr
      ⟨fun _ he => lt_of_mem_next he [], pairwise_next (pairwise_located rest)⟩
  | .loop label settings body rest => by
    have hbody : (body.located.map fun e => (0 :: e.1, e.2)).Pairwise (·.1 < ·.1) :=
      List.pairwise_map.mpr ((pairwise_located body).imp List.cons_lt_cons_self.mpr)
    rw [located, List.pairwise_cons, List.pairwise_append]
    refine ⟨fun e he => ?_, hbody, pairwise_next (pairwise_located rest), fun e he e' he' => ?_⟩
    · rcases List.mem_append.mp he with he | he
      · obtain ⟨i, q, hp, -⟩ := (mem_map_located_iff (fun _ => mem_located_iff) _ e.1).mp he
        rw [hp]
        exact List.cons_lt_cons_self.mpr (List.nil_lt_cons _ _)
      · exact lt_of_mem_next he []
    · obtain ⟨q, -, rfl⟩ := List.mem_map.mp he
      exact lt_of_mem_next he' q.1

/-- A name comes up in the walk as often as actions have it. -/
theorem count_allNames (chain : Chain) (name : String) :
    chain.allNames.count name = chain.uses name := by
  let named := (chain.located.filter (·.2 = name)).map (·.1)
  have hnodup : named.Nodup :=
    List.pairwise_map.mpr ((chain.pairwise_located.filter _).imp ne_of_lt)
  have hpositions : {p | chain.nameAt? p = some name} = ↑named.toFinset := by
    ext p
    simp [named, ← mem_located_iff]
  rw [uses, hpositions, Set.ncard_coe_finset, List.toFinset_card_of_nodup hnodup,
    List.length_map, ← List.countP_eq_length_filter, ← map_located, List.count, List.countP_map]
  rfl

end Chain
end Stepwise
