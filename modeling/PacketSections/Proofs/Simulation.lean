import Mathlib
import PacketSections.Proofs.Machines
import PacketSections.Proofs.Passes

/-!
A program runs as the parser from which it was lowered.

Sections stand for states one by one. What a section has to do with its state is said without the
lowering, by `State.Becomes`; from that, one step of the program is one step of the parser, and so
are all steps.
-/

namespace PacketSections

open Lowering

variable {facts : Facts} {storage : Storage} {truth : Truth}

/-! ### Conditions -/

lemma truth_conjunction {ts : List String} (ht : truth.Joins ts) (h : ts ≠ []) :
    truth (conjunction ts) = ts.all truth := by
  match ts, h with
  | [t], _ => simp [conjunction]
  | t :: t' :: ts, _ => exact ht (by simp)

lemma keyCondition?_convert (key : Expr) (k : Keyset) :
    keyCondition? facts storage (convert facts storage key) k =
      k.term? (convert facts storage) key := by
  cases k <;> rfl

lemma caseCondition_terms (keys : List Expr) (c : SelectCase) :
    caseCondition facts storage (keys.map (convert facts storage)) c =
      conjunction (Keyset.terms (convert facts storage) keys c.keyset) := by
  unfold caseCondition Keyset.terms
  rw [List.zip_map_left, List.filterMap_map]
  refine congrArg conjunction (List.filterMap_congr fun k _ => ?_)
  exact keyCondition?_convert k.1 k.2

/-- The terms of a case hold when all keys match. -/
lemma all_terms (text : Expr → String) (keys : List Expr) (c : SelectCase) :
    (Keyset.terms text keys c.keyset).all truth = c.accepts text truth keys := by
  unfold Keyset.terms SelectCase.accepts
  rw [List.all_filterMap]
  refine List.all_congr rfl fun k => ?_
  cases h : k.2.term? text k.1 <;> simp [Keyset.accepts, h]

lemma terms_eq_nil_iff {text : Expr → String} {keys : List Expr} {ks : List Keyset} :
    Keyset.terms text keys ks = [] ↔ ∀ k ∈ ks.take keys.length, k = .default := by
  unfold Keyset.terms
  induction keys generalizing ks with
  | nil => simp
  | cons key keys ih =>
    cases ks with
    | nil => simp
    | cons k ks =>
      rw [List.zip_cons_cons, List.length_cons, List.take_succ_cons, List.forall_mem_cons, ← ih]
      cases k <;> simp [Keyset.term?]

lemma SelectCase.isDefault_iff {c : SelectCase} :
    c.isDefault = true ↔ ∀ k ∈ c.keyset, k = .default := by
  unfold isDefault
  rw [List.all_eq_true]
  refine forall₂_congr fun k _ => ?_
  cases k <;> simp

/-- The condition of a case holds when the case matches. -/
lemma truth_caseCondition {keys : List Expr} {c : SelectCase}
    (ht : truth.Joins (Keyset.terms (convert facts storage) keys c.keyset))
    (hl : c.keyset.length = keys.length) (hd : c.isDefault = false) :
    truth (caseCondition facts storage (keys.map (convert facts storage)) c) =
      c.accepts (convert facts storage) truth keys := by
  have hterms : Keyset.terms (convert facts storage) keys c.keyset ≠ [] := by
    intro hnil
    rw [terms_eq_nil_iff, ← hl, List.take_length] at hnil
    rw [SelectCase.isDefault_iff.mpr hnil] at hd
    cases hd
  rw [caseCondition_terms, truth_conjunction ht hterms, all_terms]

lemma accepts_of_isDefault {text : Expr → String} {keys : List Expr} {c : SelectCase}
    (hd : c.isDefault = true) : c.accepts text truth keys = true := by
  rw [SelectCase.accepts, List.all_eq_true]
  rintro ⟨key, k⟩ hk
  obtain rfl := SelectCase.isDefault_iff.mp hd k (List.of_mem_zip hk).2
  rfl

/-! ### Transitions -/

/-- The arms choose the target of the first case that matches. -/
lemma select_choose {keys : List Expr} {cases : List SelectCase}
    (ht : ∀ c ∈ cases, truth.Joins (Keyset.terms (convert facts storage) keys c.keyset))
    (hl : ∀ c ∈ cases, c.keyset.length = keys.length) :
    (Next.select (selectArms facts storage (keys.map (convert facts storage)) cases).1
        (selectArms facts storage (keys.map (convert facts storage)) cases).2).choose truth =
      some ((Transition.select keys cases).choose (convert facts storage) truth) := by
  induction cases with
  | nil => simp [selectArms, Next.choose, Transition.choose]
  | cons c cs ih =>
    have ih := ih (fun c hc => ht c (by simp [hc])) (fun c hc => hl c (by simp [hc]))
    cases hd : c.isDefault with
    | true =>
      -- the cases after this one are never tried, and get no arms
      have : c.accepts (convert facts storage) truth keys = true := accepts_of_isDefault hd
      simp [selectArms, hd, Next.choose, Transition.choose, this]
    | false =>
      have hcond : truth (caseCondition facts storage (keys.map (convert facts storage)) c) =
          c.accepts (convert facts storage) truth keys :=
        truth_caseCondition (ht c (by simp)) (hl c (by simp)) hd
      simp only [Next.choose, Transition.choose] at ih
      cases ha : c.accepts (convert facts storage) truth keys with
      | true => simp [selectArms, hd, Next.choose, Transition.choose, hcond, ha]
      | false => simpa [selectArms, hd, Next.choose, Transition.choose, hcond, ha] using ih

lemma lowerTransition_choose {s : State}
    (ht : ∀ t ∈ s.transition, t.JoinedBy (convert facts storage) truth)
    (hl : ∀ t ∈ s.transition, t.Aligned) :
    (lowerTransition facts storage s.transition).choose truth =
      some (s.choose (convert facts storage) truth) := by
  unfold State.choose
  cases h : s.transition with
  | none => rfl
  | some t =>
    cases t with
    | direct target => rfl
    | select keys cases => exact select_choose (ht _ h) (hl _ h)

/-! ### Extracted headers -/

lemma addWidths_toNat {a b c : UInt32} (h : addWidths a b = some c) :
    c.toNat = a.toNat + b.toNat := by
  unfold addWidths at h
  split at h
  · next hlt =>
    obtain rfl := Option.some.inj h
    rw [UInt32.toNat_add, Nat.mod_eq_of_lt hlt]
  · cases h

/-- The width of a header is the sum of the widths of its fields. -/
lemma headerWidth_toNat {target : String} {type : ResolvedType} {n w : UInt32}
    {fields : List (String × ResolvedType)} (h : headerWidth target type n fields = .ok w) :
    w.toNat = n.toNat + ResolvedType.headerBits fields := by
  induction fields generalizing n with
  | nil => simp_all [headerWidth, ResolvedType.headerBits]
  | cons f fields ih =>
    obtain ⟨name, t⟩ := f
    cases t with
    | bits v =>
      simp only [headerWidth] at h
      split at h
      · next total ht =>
        rw [ih h, addWidths_toNat ht]
        simp [ResolvedType.headerBits, ResolvedType.fieldBits, Nat.add_assoc]
      · cases h
    | _ => simp [headerWidth] at h

lemma findHeader_spec {target base : Expr} {name : String} {x : Extraction}
    (hm : target.asMember = some (base, name)) (h : findHeader facts target base name = .ok x) :
    Statement.memberFields? facts target = some x.fields ∧
      x.width.toNat = ResolvedType.headerBits x.fields := by
  simp only [findHeader] at h
  split at h
  · cases h
  · split at h
    · cases h
    · next owner members ha =>
      split at h
      · cases h
      · next type hf =>
        split at h
        · cases h
        · split at h
          · cases h
          · next headerName fields hfields =>
            cases hw : headerWidth target.text type 0 fields with
            | error e => simp [hw, bind, Except.bind] at h
            | ok w =>
              simp only [hw, bind, Except.bind, pure, Except.pure, Except.ok.injEq] at h
              subst h
              refine ⟨by simp [Statement.memberFields?, hm, ha, hf, hfields], ?_⟩
              simpa using headerWidth_toNat hw

lemma lowerExtract_advance {args : List Expr} {span : Option Span} {body : Body}
    (h : (lowerExtract facts args span).result = .ok body) :
    ∃ target, args = [target] ∧ (facts.typeOf target).isHeader = true ∧
      (body.increments.map UInt32.toNat).sum =
        ((Statement.memberFields? facts target).map ResolvedType.headerBits).getD 0 := by
  match args with
  | [] => simp [lowerExtract] at h
  | _ :: _ :: _ => simp [lowerExtract] at h
  | [target] =>
    simp only [lowerExtract] at h
    split at h
    · simp at h
    · next hh =>
      refine ⟨target, rfl, by simpa using hh, ?_⟩
      split at h
      · next hm =>
        simp only [Pass.bind_ok_iff, Pass.note_result, Pass.report_result, Pass.pure_result,
          Except.ok.injEq, exists_const, true_and] at h
        simp [← h, Body.empty, Statement.memberFields?, hm]
      · next base name hm =>
        simp only [Pass.bind_ok_iff, Pass.check_result, Pass.note_result, layoutOf_result,
          Pass.pure_result, Except.ok.injEq, exists_eq_left', exists_const, true_and] at h
        obtain ⟨x, hx, rfl⟩ := h
        obtain ⟨hf, hw⟩ := findHeader_spec hm hx
        simp [hf, hw]

/-- The increments of a statement are the bits of the header that it extracts. -/
lemma lowerStatement_advance {s : Statement} {body : Body}
    (h : (lowerStatement facts storage s).result = .ok body) :
    (body.increments.map UInt32.toNat).sum = s.advance facts := by
  cases s with
  | assign left right span =>
    simp only [lowerStatement, Pass.pure_result, Except.ok.injEq] at h
    simp [← h, Statement.advance, Statement.header?, Statement.extract?]
  | empty =>
    simp only [lowerStatement, Pass.pure_result, Except.ok.injEq] at h
    simp [← h, Body.empty, Statement.advance, Statement.header?, Statement.extract?]
  | other text span =>
    simp only [lowerStatement, Pass.bind_ok_iff, Pass.note_result, Pass.pure_result,
      Except.ok.injEq, exists_const, true_and] at h
    simp [← h, Body.empty, Statement.advance, Statement.header?, Statement.extract?]
  | call method args span =>
    simp only [lowerStatement, lowerCall] at h
    simp only [Statement.advance, Statement.header?, Statement.extract?]
    cases hc : facts.call method args with
    | other =>
      simp only [hc, Pass.bind_ok_iff, Pass.note_result, Pass.pure_result, Except.ok.injEq,
        exists_const, true_and] at h
      simp [← h, Body.empty]
    | method owner name args =>
      simp only [hc] at h
      by_cases he : owner = packetSourceName ∧ name = extractName
      · rw [if_pos he] at h
        obtain ⟨target, rfl, hh, hsum⟩ := lowerExtract_advance h
        simp [he, hh, hsum]
      · rw [if_neg he] at h
        simp only [Pass.bind_ok_iff, Pass.note_result, Pass.pure_result, Except.ok.injEq,
          exists_const, true_and] at h
        simp [← h, Body.empty, he]

lemma lowerStatements_advance {ss : List Statement} {body : Body}
    (h : (lowerStatements facts storage ss).result = .ok body) :
    (body.increments.map UInt32.toNat).sum = (ss.map (Statement.advance facts)).sum := by
  induction ss generalizing body with
  | nil =>
    simp only [lowerStatements, Pass.pure_result, Except.ok.injEq] at h
    simp [← h, Body.empty]
  | cons s ss ih =>
    simp only [lowerStatements, Pass.bind_ok_iff, Pass.pure_result, Except.ok.injEq] at h
    obtain ⟨head, hs, rest, hss, rfl⟩ := h
    simp [Body.append, lowerStatement_advance hs, ih hss]

/-! ### States -/

/-- The section stands for the state. -/
structure State.Becomes (facts : Facts) (storage : Storage) (s : State) (sec : Section) : Prop where
  name : sec.name = s.name
  stops : s.isTerminal = true → sec.next = .done 0
  goesOn : s.isTerminal = false → sec.next = lowerTransition facts storage s.transition
  advances : s.isTerminal = false → sec.advance = s.advance facts

lemma terminal_becomes {s : State} {name : String} (hn : s.name = name) (ht : s.isTerminal = true)
    (index : ℕ) : s.Becomes facts storage (Section.terminal name index) where
  name := hn.symm
  stops _ := rfl
  goesOn h := by simp [ht] at h
  advances h := by simp [ht] at h

lemma lowerState_becomes {s : State} {index : ℕ} {sec : Section} (ht : s.isTerminal = false)
    (h : (lowerState facts storage s index).result = .ok sec) : s.Becomes facts storage sec := by
  simp only [lowerState, Pass.bind_ok_iff, Pass.pure_result, Except.ok.injEq] at h
  obtain ⟨body, hb, rfl⟩ := h
  exact ⟨rfl, fun h => by simp [ht] at h, fun _ => rfl, fun _ => lowerStatements_advance hb⟩

lemma lowerStates_becomes {count ordinal : ℕ} {ss : List State} {secs : List Section}
    (h : (lowerStates facts storage count ordinal ss).result = .ok secs) :
    List.Forall₂ (State.Becomes facts storage) ss secs := by
  induction ss generalizing ordinal secs with
  | nil =>
    simp only [lowerStates, Pass.pure_result, Except.ok.injEq] at h
    subst h
    exact .nil
  | cons s ss ih =>
    simp only [lowerStates, Pass.bind_ok_iff, Pass.note_result, Pass.pure_result, Except.ok.injEq,
      exists_const, true_and] at h
    obtain ⟨sec, hsec, rest, hrest, rfl⟩ := h
    refine .cons ?_ (ih hrest)
    split at hsec
    · next hr =>
      obtain rfl := Except.ok.inj hsec
      exact terminal_becomes (by simpa [State.isReject] using hr) (by simp [State.isTerminal, hr]) _
    · next hr =>
      split at hsec
      · next ha =>
        obtain rfl := Except.ok.inj hsec
        exact terminal_becomes (by simpa [State.isAccept] using ha)
          (by simp [State.isTerminal, ha]) _
      · next ha => exact lowerState_becomes (by simp_all [State.isTerminal]) hsec

/-- A look-up by name finds a state and its section, or neither. -/
lemma find?_becomes {ss : List State} {secs : List Section}
    (h : List.Forall₂ (State.Becomes facts storage) ss secs) (name : String) :
    (ss.find? (fun s => s.name == name) = none ∧ secs.find? (fun s => s.name == name) = none) ∨
    ∃ s sec, ss.find? (fun s => s.name == name) = some s ∧
      secs.find? (fun s => s.name == name) = some sec ∧ s.Becomes facts storage sec := by
  induction h with
  | nil => simp
  | @cons s sec ss secs hs _ ih =>
    by_cases hn : s.name = name
    · exact .inr ⟨s, sec, by simp [hn], by simp [hs.name, hn], hs⟩
    · simpa [hs.name, hn] using ih

/-! ### Value sets -/

lemma lowerLocals_storage {ls : List LocalDecl} {sets out : ValueSets}
    (h : (lowerLocals facts ls sets).result = .ok out) :
    out.storage =
      (ls.filterMap LocalDecl.entry?).foldl (fun s e => s.insert e.1 e.2) sets.storage := by
  induction ls generalizing sets with
  | nil =>
    simp only [lowerLocals, Pass.pure_result, Except.ok.injEq] at h
    simp [← h]
  | cons l ls ih =>
    cases l with
    | valueSet name element size exported span =>
      simp only [lowerLocals] at h
      split at h
      · simp at h
      · split at h
        · simp at h
        · simp only [Pass.bind_ok_iff, Pass.note_result, exists_const, true_and] at h
          simpa [LocalDecl.entry?] using ih h
    | var name type initial span =>
      simp only [lowerLocals, Pass.bind_ok_iff, Pass.note_result, exists_const, true_and] at h
      simpa [List.filterMap_cons, LocalDecl.entry?] using ih h
    | inst name type span =>
      simp only [lowerLocals, Pass.bind_ok_iff, Pass.note_result, exists_const, true_and] at h
      simpa [List.filterMap_cons, LocalDecl.entry?] using ih h

lemma lowerTuples_storage {u : ParserUnit} {t : Tuples}
    (h : (lowerTuples facts u).result = .ok t) : t.storage = u.storage := by
  simp only [lowerTuples, Pass.bind_ok_iff] at h
  obtain ⟨params, -, sets, hsets, h⟩ := h
  have hs := lowerLocals_storage hsets
  split at h <;> simp only [Pass.pure_result, Except.ok.injEq] at h
  · simpa [← h, ParserUnit.storage] using hs
  · simpa [← h, Tuples.push, ParserUnit.storage] using hs

/-! ### Runs -/

/-- A program is made of the tuples and of the sections. -/
lemma lower_parts {u : ParserUnit} {p : Program} (h : (lower facts u).result = .ok p) :
    ∃ t : Tuples, (lowerTuples facts u).result = .ok t ∧
      (lowerStates facts u.storage u.states.length 1 u.states).result = .ok p.sections ∧
      p.tupleDefs = t.defs ∧ p.tupleInsts = t.insts ∧ p.storage = u.storage := by
  simp only [lower, Pass.bind_ok_iff, Pass.note_result, Pass.pure_result, Except.ok.injEq,
    exists_const, true_and] at h
  obtain ⟨t, ht, sections, hs, rfl⟩ := h
  rw [lowerTuples_storage ht] at hs
  exact ⟨t, ht, hs, rfl, rfl, lowerTuples_storage ht⟩

lemma lower_becomes {u : ParserUnit} {p : Program} (h : (lower facts u).result = .ok p) :
    List.Forall₂ (State.Becomes facts u.storage) u.states p.sections := by
  obtain ⟨t, -, hs, -⟩ := lower_parts h
  exact lowerStates_becomes hs

/-- Each state has its section at its own position. -/
lemma lower_becomes_at {u : ParserUnit} {p : Program} (h : (lower facts u).result = .ok p) {i : ℕ}
    {s : State} (hs : u.states[i]? = some s) :
    ∃ sec, p.sections[i]? = some sec ∧ s.Becomes facts u.storage sec := by
  have hb := lower_becomes h
  obtain ⟨hi, rfl⟩ := List.getElem?_eq_some_iff.mp hs
  have hi' : i < p.sections.length := by rw [← hb.length_eq]; exact hi
  exact ⟨_, List.getElem?_eq_getElem hi', hb.get hi hi'⟩

/-- One step of the program is one step of the parser. -/
lemma lower_step {u : ParserUnit} {p : Program} (h : (lower facts u).result = .ok p)
    (hu : u.Aligned) (ht : u.JoinedBy facts truth) (place : Place) :
    p.step truth place = u.step facts truth place := by
  unfold Program.step ParserUnit.step Program.section? ParserUnit.state?
  obtain ⟨hs, hsec⟩ | ⟨s, sec, hs, hsec, hb⟩ := find?_becomes (lower_becomes h) place.name
  · -- no such state and no such section: both stop
    simp [hs, hsec]
  · have hmem := List.mem_of_find?_eq_some hs
    cases hterm : s.isTerminal with
    | true => simp [hs, hsec, hterm, hb.stops hterm, Next.choose]
    | false =>
      have hnext : (lowerTransition facts u.storage s.transition).choose truth =
          some (s.choose (convert facts u.storage) truth) :=
        lowerTransition_choose (ht s hmem) (hu s hmem)
      simp [hs, hsec, hterm, hb.goesOn hterm, hb.advances hterm, hnext]

lemma runFrom_congr {f g : ℕ → Place → Option Place} (h : ∀ i place, f i place = g i place)
    (start : Place) (n : ℕ) : runFrom f start n = runFrom g start n := by
  induction n with
  | zero => rfl
  | succ n ih => simp only [runFrom, ih, funext (h n)]

lemma isTerminal_iff {name : String} {s : State} (hn : s.name = name) :
    s.isTerminal = true ↔ name = State.acceptName ∨ name = State.rejectName := by
  simp [State.isTerminal, State.isAccept, State.isReject, hn]

lemma lowerTransition_not_done (t : Option Transition) (code : UInt32) :
    lowerTransition facts storage t ≠ .done code := by
  unfold lowerTransition
  split <;> simp

/-- The sections that stop are those of the states that end a parser. -/
lemma becomes_isTerminal {s : State} {sec : Section} (h : s.Becomes facts storage sec) :
    sec.isTerminal = s.isTerminal := by
  cases ht : s.isTerminal with
  | true => simp [Section.isTerminal, h.stops ht]
  | false =>
    have hn : ∀ code, lowerTransition facts storage s.transition ≠ .done code :=
      lowerTransition_not_done s.transition
    rw [← h.goesOn ht] at hn
    unfold Section.isTerminal
    split
    · next code hc => exact absurd hc (hn code)
    · rfl

/-- **The program runs as the parser does**: from any place, and whatever the conditions turn out to
be at each step, as long as the terms of a case hold jointly when all of them do, both stand at the
same place after each number of steps. Of the states that are declared, the sections of `accept` and
`reject` are the ones in which the program stops. -/
theorem lower_run_eq {facts : Facts} {u : ParserUnit} {p : Program}
    (h : (lower facts u).result = .ok p) (hu : u.Aligned) (truths : ℕ → Truth)
    (ht : ∀ i, u.JoinedBy facts (truths i)) (start : Place) :
    (∀ n, p.run truths start n = u.run facts truths start n) ∧
      ∀ name s, u.state? name = some s → ∃ sec, p.section? name = some sec ∧
        (sec.isTerminal = true ↔ name = State.acceptName ∨ name = State.rejectName) := by
  refine ⟨fun n => runFrom_congr (fun i => lower_step h hu (ht i)) start n, fun name s hs => ?_⟩
  unfold ParserUnit.state? at hs
  obtain ⟨hs', -⟩ | ⟨s', sec, hs', hsec, hb⟩ := find?_becomes (lower_becomes h) name
  · rw [hs'] at hs; cases hs
  · have hn : s'.name = name := by simpa using List.find?_some hs'
    exact ⟨sec, hsec, by rw [becomes_isTerminal hb, isTerminal_iff hn]⟩

/-- Two headers, the second of which is read only when the first asks for it. -/
def sampleParser : ParserUnit where
  name := "Sample"
  types := .ofList
    [("packet_in", .external),
     ("tag_t", .header [⟨"kind", .bits 8⟩, ⟨"more", .bits 4⟩]),
     ("headers_t", .struct [⟨"outer", .named "tag_t"⟩, ⟨"inner", .named "tag_t"⟩])]
  params :=
    [⟨"packet", .none, .named "packet_in", none⟩, ⟨"hdr", .write, .named "headers_t", none⟩]
  locals := [.valueSet "known" (.bits 8) 4 (some "known_kinds") none]
  states :=
    let hdr (name : String) : Expr := .member (.path "hdr" none) name none
    let extract (name : String) : Statement :=
      .call (.member (.path "packet" none) "extract" none) [hdr name] none
    [⟨"start", [extract "outer"],
      some (.select [.member (hdr "outer") "kind" none, .member (hdr "outer") "more" none]
        [⟨[.value (.constant 7 none none), .default], "reject"⟩,
         ⟨[.value (.path "known" none), .mask (.constant 1 none none) (.constant 3 none none)],
          "inner"⟩,
         ⟨[.default, .default], "accept"⟩]), none⟩,
     ⟨"inner", [extract "inner"], some (.direct "accept"), none⟩,
     .bare "accept", .bare "reject"]

/-- The kind is a known one and the last two bits are `01`; no other text holds. -/
def sampleTruth : Truth := fun s =>
  s ∈ ["hdr.outer.kind == local.known_kinds", "(hdr.outer.more & 3) == 1",
    "(hdr.outer.kind == local.known_kinds) && ((hdr.outer.more & 3) == 1)"]

lemma sampleTruth_joins : sampleParser.JoinedBy sampleParser.facts sampleTruth := by decide

lemma sampleParser_aligned : sampleParser.Aligned := by
  simp [ParserUnit.Aligned, sampleParser, Transition.Aligned, State.bare]

theorem lower_run_eq_sample :
    ∃ p, (lower sampleParser.facts sampleParser).result = .ok p ∧
      p.run (fun _ => sampleTruth) ⟨"start", 0⟩ 1 = some ⟨"inner", 12⟩ ∧
      p.run (fun _ => sampleTruth) ⟨"start", 0⟩ 2 = some ⟨"accept", 24⟩ ∧
      p.run (fun _ => sampleTruth) ⟨"start", 0⟩ 3 = none := by
  obtain ⟨p, hp⟩ : ∃ p, (lower sampleParser.facts sampleParser).result = .ok p := ⟨_, rfl⟩
  have hrun := (lower_run_eq hp sampleParser_aligned (fun _ => sampleTruth)
    (fun _ => sampleTruth_joins) ⟨"start", 0⟩).1
  refine ⟨p, hp, ?_, ?_, ?_⟩ <;> rw [hrun] <;> decide

end PacketSections
