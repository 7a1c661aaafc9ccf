import Mathlib
import PacketSections.Proofs.Simulation

/-!
The sections of a program and their numbers.

States from which the parser goes on are numbered in order, from one. The two in which it stops come
after all of them, by the number of states. The two ways of counting do not collide: the numbers are
distinct as long as neither of the two states is declared twice.
-/

namespace PacketSections

open Lowering

variable {facts : Facts} {storage : Storage} {count ordinal : ℕ}

/-! ### Numbers -/

namespace State

/-- How many states there are from which the parser goes on. -/
def ordinary (ss : List State) : ℕ := ss.countP fun s => !s.isTerminal

/-- The number of a state that comes after those in `before`, of `count` states in all. -/
def number (count : ℕ) (before : List State) (s : State) : ℕ :=
  if s.isReject then count
  else if s.isAccept then count + 1
  else 1 + ordinary before

/-- The numbers of the states that come after those in `before`. -/
def numbers (count : ℕ) : List State → List State → List ℕ
  | _, [] => []
  | before, s :: ss => s.number count before :: numbers count (before ++ [s]) ss

/-- A state is of one of three kinds. -/
lemma kinds (s : State) :
    (s.isReject = true ∧ s.isAccept = false ∧ s.isTerminal = true) ∨
    (s.isReject = false ∧ s.isAccept = true ∧ s.isTerminal = true) ∨
    (s.isReject = false ∧ s.isAccept = false ∧ s.isTerminal = false) := by
  unfold isTerminal isAccept isReject
  by_cases hr : s.name = rejectName
  · left
    simp [hr, rejectName, acceptName]
  · right
    by_cases ha : s.name = acceptName
    · left
      simp [ha, rejectName, acceptName]
    · right
      simp [hr, ha]

lemma ordinary_cons (s : State) (ss : List State) :
    ordinary (s :: ss) = ordinary ss + if s.isTerminal then 0 else 1 := by
  unfold ordinary
  rw [List.countP_cons]
  cases s.isTerminal <;> rfl

lemma ordinary_append_singleton (ss : List State) (s : State) :
    ordinary (ss ++ [s]) = ordinary ss + if s.isTerminal then 0 else 1 := by
  unfold ordinary
  rw [List.countP_append, List.countP_singleton]
  cases s.isTerminal <;> rfl

lemma ordinary_le_length (ss : List State) : ordinary ss ≤ ss.length := List.countP_le_length

lemma numbers_getElem? (before ss : List State) (i : ℕ) :
    (numbers count before ss)[i]? = ss[i]?.map (number count (before ++ ss.take i)) := by
  induction ss generalizing before i with
  | nil => simp [numbers]
  | cons s ss ih =>
    cases i with
    | zero => simp [numbers]
    | succ i => simp [numbers, ih]

/-- Which numbers are given: the two at the end if such states are there, and those from the first
that is free on, one for each state from which the parser goes on. -/
lemma mem_numbers {before ss : List State} {n : ℕ} :
    n ∈ numbers count before ss ↔
      (n = count ∧ 0 < ss.countP isReject) ∨ (n = count + 1 ∧ 0 < ss.countP isAccept) ∨
      (ordinary before < n ∧ n ≤ ordinary before + ordinary ss) := by
  induction ss generalizing before with
  | nil =>
    simp only [numbers, ordinary, List.not_mem_nil, List.countP_nil, false_iff]
    omega
  | cons s ss ih =>
    rw [numbers, List.mem_cons, ih, ordinary_append_singleton, ordinary_cons, List.countP_cons,
      List.countP_cons]
    unfold number
    rcases s.kinds with ⟨hr, ha, ht⟩ | ⟨hr, ha, ht⟩ | ⟨hr, ha, ht⟩ <;>
    · simp only [hr, ha, ht, if_true, Bool.false_eq_true, if_false]
      omega

/-- The numbers are distinct when neither of the two last states is there twice. -/
lemma nodup_numbers {before ss : List State} (hc : ordinary before + ss.length ≤ count) :
    (numbers count before ss).Nodup ↔ ss.countP isAccept ≤ 1 ∧ ss.countP isReject ≤ 1 := by
  induction ss generalizing before with
  | nil => simp [numbers]
  | cons s ss ih =>
    rw [List.length_cons] at hc
    have hle := ordinary_le_length ss
    have hreject : ss.countP isReject ≤ ss.length := List.countP_le_length
    have hnext : ordinary (before ++ [s]) + ss.length ≤ count := by
      rw [ordinary_append_singleton]
      split <;> omega
    rw [numbers, List.nodup_cons, ih hnext, mem_numbers, ordinary_append_singleton,
      List.countP_cons, List.countP_cons]
    unfold number
    rcases s.kinds with ⟨hr, ha, ht⟩ | ⟨hr, ha, ht⟩ | ⟨hr, ha, ht⟩ <;>
    · simp only [hr, ha, ht, if_true, Bool.false_eq_true, if_false, true_and]
      omega

end State

/-! ### Sections -/

/-- What is made of the first state, and how the count goes on. -/
lemma lowerStates_cons {s : State} {ss : List State} {secs : List Section}
    (h : (lowerStates facts storage count ordinal (s :: ss)).result = .ok secs) :
    ∃ sec rest, secs = sec :: rest ∧
      sec.index = (if s.isReject then count else if s.isAccept then count + 1 else ordinal) ∧
      (s.isTerminal = true → sec = Section.terminal s.name sec.index) ∧
      (lowerStates facts storage count (if s.isTerminal then ordinal else ordinal + 1) ss).result =
        .ok rest := by
  simp only [lowerStates, Pass.bind_ok_iff, Pass.note_result, Pass.pure_result, Except.ok.injEq,
    exists_const, true_and] at h
  obtain ⟨sec, hsec, rest, hrest, rfl⟩ := h
  refine ⟨sec, rest, rfl, ?_⟩
  rcases s.kinds with ⟨hr, ha, ht⟩ | ⟨hr, ha, ht⟩ | ⟨hr, ha, ht⟩
  · have hn : s.name = State.rejectName := by simpa [State.isReject] using hr
    simp only [hr, if_true] at hsec hrest
    obtain rfl := Except.ok.inj hsec
    simp [hr, ht, hn, hrest, Section.terminal]
  · have hn : s.name = State.acceptName := by simpa [State.isAccept] using ha
    simp only [hr, ha, if_true, Bool.false_eq_true, if_false] at hsec hrest
    obtain rfl := Except.ok.inj hsec
    simp [hr, ha, ht, hn, hrest, Section.terminal]
  · simp only [hr, ha, Bool.false_eq_true, if_false, lowerState, Pass.bind_ok_iff, Pass.pure_result,
      Except.ok.injEq] at hsec hrest
    obtain ⟨body, -, rfl⟩ := hsec
    simp [hr, ha, ht, hrest]

lemma lowerStates_numbers {before ss : List State} {secs : List Section}
    (h : (lowerStates facts storage count (1 + State.ordinary before) ss).result = .ok secs) :
    secs.map Section.index = State.numbers count before ss := by
  induction ss generalizing before secs with
  | nil =>
    simp only [lowerStates, Pass.pure_result, Except.ok.injEq] at h
    simp [← h, State.numbers]
  | cons s ss ih =>
    obtain ⟨sec, rest, rfl, hindex, -, hrest⟩ := lowerStates_cons h
    have hnext : (if s.isTerminal then 1 + State.ordinary before
        else 1 + State.ordinary before + 1) = 1 + State.ordinary (before ++ [s]) := by
      rw [State.ordinary_append_singleton]
      split <;> omega
    rw [hnext] at hrest
    rw [List.map_cons, State.numbers, ih hrest, hindex, State.number]

lemma lowerStates_terminal {ss : List State} {secs : List Section}
    (h : (lowerStates facts storage count ordinal ss).result = .ok secs) :
    List.Forall₂ (fun s sec => s.isTerminal = true → sec = Section.terminal s.name sec.index)
      ss secs := by
  induction ss generalizing ordinal secs with
  | nil =>
    simp only [lowerStates, Pass.pure_result, Except.ok.injEq] at h
    rw [← h]
    exact .nil
  | cons s ss ih =>
    obtain ⟨sec, rest, rfl, -, hterm, hrest⟩ := lowerStates_cons h
    exact .cons hterm (ih hrest)

lemma lower_numbers {u : ParserUnit} {p : Program} (h : (lower facts u).result = .ok p) :
    p.sections.map Section.index = State.numbers u.states.length [] u.states := by
  obtain ⟨t, -, hs, -⟩ := lower_parts h
  exact lowerStates_numbers hs

/-- Sections in which the parser stops hold nothing. -/
lemma lower_terminal {u : ParserUnit} {p : Program} (h : (lower facts u).result = .ok p) {i : ℕ}
    {s : State} {sec : Section} (hs : u.states[i]? = some s) (hsec : p.sections[i]? = some sec)
    (ht : s.isTerminal = true) : sec = Section.terminal s.name sec.index := by
  obtain ⟨t, -, hss, -⟩ := lower_parts h
  obtain ⟨hi, rfl⟩ := List.getElem?_eq_some_iff.mp hs
  obtain ⟨hj, rfl⟩ := List.getElem?_eq_some_iff.mp hsec
  exact (lowerStates_terminal hss).get hi hj ht

/-- **The table of sections.** There is one section for each state, of the same name and in the same
order. Its number is that of the state, from one to one more than there are states, and the numbers
are distinct exactly when neither `accept` nor `reject` is declared twice. The sections that stop
are those of these two, and they hold nothing. -/
theorem lower_section_table {facts : Facts} {u : ParserUnit} {p : Program}
    (h : (lower facts u).result = .ok p) :
    p.sections.length = u.states.length ∧
    (∀ (i : ℕ) (s : State), u.states[i]? = some s → ∃ sec : Section, p.sections[i]? = some sec ∧
      sec.name = s.name ∧
      sec.index = s.number u.states.length (u.states.take i) ∧
      1 ≤ sec.index ∧ sec.index ≤ u.states.length + 1 ∧
      (sec.isTerminal = true ↔ s.isTerminal = true) ∧
      (s.isTerminal = true →
        sec.layouts = [] ∧ sec.updates = [] ∧ sec.increments = [] ∧ sec.next = .done 0)) ∧
    ((p.sections.map Section.index).Nodup ↔
      u.states.countP State.isAccept ≤ 1 ∧ u.states.countP State.isReject ≤ 1) := by
  have hnum := lower_numbers h
  refine ⟨(lower_becomes h).length_eq.symm, fun i s hs => ?_, ?_⟩
  · obtain ⟨sec, hsec, hb⟩ := lower_becomes_at h hs
    have hindex : sec.index = s.number u.states.length (u.states.take i) := by
      have := congrArg (·[i]?) hnum
      simpa [State.numbers_getElem?, hsec, hs] using this
    have hmem : sec.index ∈ State.numbers u.states.length [] u.states := by
      rw [← hnum]
      exact List.mem_map_of_mem (List.mem_of_getElem? hsec)
    have hlen : 0 < u.states.length := List.length_pos_of_mem (List.mem_of_getElem? hs)
    have hle := State.ordinary_le_length u.states
    rw [State.mem_numbers] at hmem
    have hnil : State.ordinary [] = 0 := rfl
    refine ⟨sec, hsec, hb.name, hindex, by omega, by omega, by rw [becomes_isTerminal hb], ?_⟩
    intro ht
    rw [lower_terminal h hs hsec ht]
    exact ⟨rfl, rfl, rfl, rfl⟩
  · rw [hnum]
    exact State.nodup_numbers (by simp [State.ordinary])

/-- The states come in the other order, and one of them comes twice. -/
def repeatedParser : ParserUnit :=
  { sampleParser with states := sampleParser.states.reverse ++ [.bare "accept"] }

theorem lower_section_table_repeated :
    ∃ p, (lower repeatedParser.facts repeatedParser).result = .ok p ∧
      p.sections.length = 5 ∧ ¬ (p.sections.map Section.index).Nodup ∧
      ∃ sec : Section, p.sections[3]? = some sec ∧ sec.name = "start" ∧ sec.index = 2 := by
  obtain ⟨p, hp⟩ : ∃ p, (lower repeatedParser.facts repeatedParser).result = .ok p := ⟨_, rfl⟩
  obtain ⟨hlen, hsecs, hnodup⟩ := lower_section_table hp
  obtain ⟨sec, hsec, hname, hindex, -⟩ := hsecs 3 _ rfl
  exact ⟨p, hp, hlen, by rw [hnodup]; decide, sec, hsec, hname, hindex⟩

end PacketSections
