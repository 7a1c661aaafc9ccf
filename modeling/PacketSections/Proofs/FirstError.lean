import Mathlib
import PacketSections.Proofs.Machines
import PacketSections.Proofs.Passes

/-!
The first thing wrong with a parser is what lowering reports.

Lowering goes through the parameters, the value sets and the calls that extract from the packet, in
this order. Each of these constructs may be at fault, and some extractions are worth a warning. The
computation visits the constructs one by one, up to the first at fault.
-/

namespace PacketSections

open Lowering Text

variable {facts : Facts} {α β : Type}

/-- What lowering takes a look at. -/
inductive Construct where
  | param (p : Param)
  /-- A value set, and the local declarations before it. -/
  | valueSet (earlier : List LocalDecl) (l : LocalDecl)
  /-- The arguments and the place of a call that extracts. -/
  | extract (args : List Expr) (span : Option Span)

namespace LocalDecl

/-- The storage name of a value set, and the name of the set. -/
def owner? (l : LocalDecl) : Option (String × String) := l.controlName.map fun s => (s, l.name)

end LocalDecl

namespace Construct

/-- The place that is reported. -/
def span : Construct → Option Span
  | param p => p.span
  | valueSet _ l => l.span
  | extract [target] span => target.span.or span
  | extract _ span => span

/-- The construct cannot be lowered. -/
def Offends (facts : Facts) : Construct → Prop
  | param p =>
    facts.resolve p.type ≠ .packetSource ∧ (facts.resolve p.type).asAggregate = none
  | valueSet earlier l =>
    (∃ e ∈ earlier, e.controlName = l.controlName) ∨ (facts.resolve l.type).width = none
  | extract args span => ∃ e, (lowerExtract facts args span).result = .error e

/-- What is wrong with the construct. -/
def fault? (facts : Facts) : Construct → Option LowerError
  | param p =>
    match facts.resolve p.type with
    | .packetSource => none
    | .aggregate _ _ _ => none
    | .external owner => some (.externalParam p.name owner)
    | type => some (.paramType p.name type)
  | valueSet earlier l =>
    let storage := l.controlName.getD l.name
    match (earlier.filterMap LocalDecl.owner?).lookup storage with
    | some first => some (.sharedStorage first l.name storage)
    | none =>
      if (facts.resolve l.type).width.isNone then
        some (.elementWidth l.name (facts.resolve l.type))
      else none
  | extract args span =>
    match (lowerExtract facts args span).result with
    | .error e => some e
    | .ok _ => none

/-- The warning about an extraction into a header that is no member of anything. -/
def warning? (facts : Facts) : Construct → Option Diagnostic
  | extract [target] span =>
    if (facts.typeOf target).isHeader ∧ target.asMember = none then
      some ((Diagnostic.ofKind .extractTargetIgnored (target.span.or span)).withDetail
        (ticked target.text))
    else none
  | _ => none

def warnings (facts : Facts) (cs : List Construct) : List Diagnostic :=
  cs.filterMap (warning? facts)

lemma warnings_append (facts : Facts) (cs ds : List Construct) :
    warnings facts (cs ++ ds) = warnings facts cs ++ warnings facts ds := by
  simp [warnings]

end Construct

/-- The value sets among the declarations that come after `earlier`. -/
def LocalDecl.constructs : List LocalDecl → List LocalDecl → List Construct
  | _, [] => []
  | earlier, l :: ls =>
    (if l.controlName.isSome then [.valueSet earlier l] else []) ++ constructs (earlier ++ [l]) ls

namespace State

/-- The extractions of a state, unless the parser stops in it. -/
def constructs (facts : Facts) (s : State) : List Construct :=
  if s.isTerminal then []
  else s.statements.filterMap fun t => (t.extract? facts).map fun x => .extract x.1 x.2

end State

/-- All constructs of a parser, in order. -/
def ParserUnit.constructs (facts : Facts) (u : ParserUnit) : List Construct :=
  u.params.map .param ++ LocalDecl.constructs [] u.locals ++
    u.states.flatMap (State.constructs facts)

/-- The computation goes through the constructs, up to the first that is at fault. -/
inductive Visits (facts : Facts) : List Construct → Pass α → Prop
  | all {cs : List Construct} {log : List LogEntry} {a : α} (h : ∀ c ∈ cs, c.fault? facts = none) :
    Visits facts cs ⟨log, Construct.warnings facts cs, .ok a⟩
  | upTo {pre post : List Construct} {c : Construct} {log : List LogEntry} {e : LowerError}
    (hpre : ∀ d ∈ pre, d.fault? facts = none) (hc : c.fault? facts = some e) :
    Visits facts (pre ++ c :: post)
      ⟨log, Construct.warnings facts pre ++ [e.diagnostic c.span], .error e⟩

namespace Visits

/-- A computation that neither reports nor fails. -/
lemma quiet (log : List LogEntry) (a : α) : Visits facts [] (⟨log, [], .ok a⟩ : Pass α) :=
  .all (by simp)

lemma fail {c : Construct} {post : List Construct} {e : LowerError} {span : Option Span}
    (hc : c.fault? facts = some e) (hs : c.span = span) :
    Visits facts (c :: post) (Pass.fail e span : Pass α) := by
  subst hs
  rw [← List.nil_append (c :: post)]
  exact .upTo (by simp) hc

/-- One computation after the other visits one list of constructs after the other. -/
lemma bind {p : Pass α} {f : α → Pass β} {cs ds : List Construct} (hp : Visits facts cs p)
    (hf : ∀ a, p.result = .ok a → Visits facts ds (f a)) : Visits facts (cs ++ ds) (p >>= f) := by
  cases hp with
  | upTo hpre hc =>
    rw [List.append_assoc, List.cons_append]
    exact .upTo hpre hc
  | @all _ log a hcs =>
    -- nothing wrong so far: what the second reports comes after the warnings of the first
    have hq := hf a rfl
    simp only [Pass.bind_def, Pass.andThen]
    generalize f a = q at hq
    cases hq with
    | all hds =>
      rw [← Construct.warnings_append]
      exact .all (List.forall_mem_append.mpr ⟨hcs, hds⟩)
    | upTo hpre hc =>
      rw [← List.append_assoc, ← List.append_assoc, ← Construct.warnings_append]
      exact .upTo (List.forall_mem_append.mpr ⟨hcs, hpre⟩) hc

/-- What follows the visit of some constructs visits no others. -/
lemma map {p : Pass α} {f : α → Pass β} {cs : List Construct} (hp : Visits facts cs p)
    (hf : ∀ a, Visits facts [] (f a)) : Visits facts cs (p >>= f) := by
  simpa using hp.bind fun a _ => hf a

/-- What comes before the visit visits none. -/
lemma after {p : Pass α} {f : α → Pass β} {cs : List Construct} (hp : Visits facts [] p)
    (hf : ∀ a, p.result = .ok a → Visits facts cs (f a)) : Visits facts cs (p >>= f) := by
  simpa using hp.bind hf

end Visits

/-! ### Parameters and value sets -/

lemma visits_value (a : α) : Visits facts [] (Pass.value a) := .quiet [] a

lemma visits_pure (a : α) : Visits facts [] (pure a : Pass α) := .quiet [] a

lemma visits_note (level : LogLevel) (topic : Topic) (message : String) :
    Visits facts [] (Pass.note level topic message) := .quiet _ ()

lemma visits_layoutOf (t : ResolvedType) (bare : Bool) : Visits facts [] (layoutOf facts t bare) :=
  .quiet _ _

/-- A construct without fault and without warning is passed over. -/
lemma visits_sound {c : Construct} {p : Pass α} (hc : c.fault? facts = none)
    (hw : c.warning? facts = none) (hp : Visits facts [] p) : Visits facts [c] p := by
  generalize hcs : ([] : List Construct) = cs at hp
  cases hp with
  | all h =>
    subst hcs
    have hd : Construct.warnings facts [] = Construct.warnings facts [c] := by
      simp [Construct.warnings, hw]
    rw [hd]
    exact .all (by simp [hc])
  | upTo => simp at hcs

lemma visits_lowerParam (p : Param) : Visits facts [.param p] (lowerParam facts p) := by
  cases hr : facts.resolve p.type with
  | packetSource =>
    simp only [lowerParam, hr]
    exact visits_sound (by simp [Construct.fault?, hr]) rfl
      ((visits_note _ _ _).after fun _ _ => visits_pure _)
  | aggregate kind name fields =>
    simp only [lowerParam, hr]
    exact visits_sound (by simp [Construct.fault?, hr]) rfl
      ((visits_layoutOf _ _).after fun _ _ => (visits_note _ _ _).after fun _ _ => visits_pure _)
  | _ =>
    simp only [lowerParam, hr]
    exact .fail (by simp [Construct.fault?, hr]) rfl

lemma visits_lowerParams (ps : List Param) (t : Tuples) :
    Visits facts (ps.map .param) (lowerParams facts ps t) := by
  induction ps generalizing t with
  | nil => exact visits_pure t
  | cons p ps ih =>
    refine (visits_lowerParam p).bind fun d _ => ?_
    cases d with
    | none => exact ih t
    | some d => exact ih (t.push d p.name)

/-- The owners are the value sets that came before. -/
lemma visits_lowerLocals (earlier ls : List LocalDecl) (sets : ValueSets)
    (ho : sets.owners = earlier.filterMap LocalDecl.owner?) :
    Visits facts (LocalDecl.constructs earlier ls) (lowerLocals facts ls sets) := by
  induction ls generalizing earlier sets with
  | nil => exact visits_pure sets
  | cons l ls ih =>
    cases l with
    | valueSet name element size exported span =>
      simp only [lowerLocals, ho]
      cases hl : (earlier.filterMap LocalDecl.owner?).lookup (exported.getD name) with
      | some first =>
        exact .fail (by simp [Construct.fault?, LocalDecl.controlName, LocalDecl.name, hl]) rfl
      | none =>
        cases hw : (facts.resolve element).width with
        | none =>
          exact .fail (by simp [Construct.fault?, LocalDecl.controlName, LocalDecl.name,
            LocalDecl.type, hl, hw]) rfl
        | some width =>
          have hc : (Construct.valueSet earlier (.valueSet name element size exported span)).fault?
              facts = none := by
            simp [Construct.fault?, LocalDecl.controlName, LocalDecl.type, hl, hw]
          refine (visits_sound hc rfl (visits_note _ _ _)).bind fun _ _ => ih _ _ ?_
          simp [LocalDecl.owner?, LocalDecl.controlName, LocalDecl.name]
    | var name type initial span =>
      have := ih (earlier ++ [.var name type initial span]) sets
        (by simp [ho, LocalDecl.owner?, LocalDecl.controlName])
      exact (visits_note _ _ _).after fun _ _ => this
    | inst name type span =>
      have := ih (earlier ++ [.inst name type span]) sets
        (by simp [ho, LocalDecl.owner?, LocalDecl.controlName])
      exact (visits_note _ _ _).after fun _ _ => this

lemma visits_lowerTuples (u : ParserUnit) :
    Visits facts (u.params.map .param ++ LocalDecl.constructs [] u.locals)
      (lowerTuples facts u) := by
  refine (visits_lowerParams u.params .empty).bind fun params _ => ?_
  refine (visits_lowerLocals [] u.locals ⟨[], [], .empty⟩ rfl).map fun sets => ?_
  split <;> exact visits_pure _

/-! ### States -/

lemma extract_fault?_error {args : List Expr} {span : Option Span} {e : LowerError}
    (h : (lowerExtract facts args span).result = .error e) :
    (Construct.extract args span).fault? facts = some e := by
  simp [Construct.fault?, h]

lemma extract_fault?_ok {args : List Expr} {span : Option Span} {body : Body}
    (h : (lowerExtract facts args span).result = .ok body) :
    (Construct.extract args span).fault? facts = none := by
  simp [Construct.fault?, h]

/-- An extraction is refused at its own place, or warned about, or lowered. -/
lemma visits_lowerExtract (args : List Expr) (span : Option Span) :
    Visits facts [.extract args span] (lowerExtract facts args span) := by
  match args with
  | [] => exact .fail (extract_fault?_error rfl) rfl
  | _ :: _ :: _ => exact .fail (extract_fault?_error rfl) rfl
  | [target] =>
    cases hh : (facts.typeOf target).isHeader with
    | false =>
      have hl : lowerExtract facts [target] span =
          Pass.fail (.targetType target.text (facts.typeOf target)) (target.span.or span) := by
        simp [lowerExtract, hh]
      rw [hl]
      exact .fail (extract_fault?_error (by rw [hl]; rfl)) rfl
    | true =>
      cases hm : target.asMember with
      | none =>
        -- no member of anything: a warning, and nothing is extracted
        have hw : Construct.warnings facts [.extract [target] span] =
            [(Diagnostic.ofKind .extractTargetIgnored (target.span.or span)).withDetail
              (ticked target.text)] := by
          simp [Construct.warnings, Construct.warning?, hh, hm]
        have hok : (lowerExtract facts [target] span).result = .ok .empty := by
          simp [lowerExtract, hh, hm]
        have hv (log : List LogEntry) : Visits facts [.extract [target] span]
            ⟨log, Construct.warnings facts [.extract [target] span], .ok Body.empty⟩ :=
          .all (by simp [extract_fault?_ok hok])
        rw [hw] at hv
        simp only [lowerExtract, hh, hm]
        exact hv _
      | some m =>
        obtain ⟨base, name⟩ := m
        have hw : (Construct.extract [target] span).warning? facts = none := by
          simp [Construct.warning?, hm]
        cases hx : findHeader facts target base name with
        | error e =>
          have hl : lowerExtract facts [target] span = Pass.fail e (target.span.or span) := by
            simp only [lowerExtract, hh, hm, hx]
            rfl
          rw [hl]
          exact .fail (extract_fault?_error (by rw [hl]; rfl)) rfl
        | ok x =>
          have hok : (lowerExtract facts [target] span).result =
              .ok ⟨[(facts.layout x.type true).text], extractUpdates target.text x, [x.width]⟩ := by
            simp [lowerExtract, hh, hm, hx]
          refine visits_sound (extract_fault?_ok hok) hw ?_
          simp only [lowerExtract, hh, hm, hx]
          exact (visits_value x).after fun _ _ => (visits_note _ _ _).after fun _ _ =>
            (visits_layoutOf _ _).after fun _ _ => visits_pure _

lemma visits_lowerStatement (storage : Storage) (s : Statement) :
    Visits facts ((s.extract? facts).map fun x => Construct.extract x.1 x.2).toList
      (lowerStatement facts storage s) := by
  cases s with
  | assign left right span => exact visits_pure _
  | empty => exact visits_pure _
  | other text span => exact (visits_note _ _ _).after fun _ _ => visits_pure _
  | call method args span =>
    simp only [lowerStatement, lowerCall, Statement.extract?]
    cases hc : facts.call method args with
    | other => exact (visits_note _ _ _).after fun _ _ => visits_pure _
    | method owner name args =>
      by_cases he : owner = packetSourceName ∧ name = extractName
      · simpa [he] using visits_lowerExtract args span
      · simp only [he, if_false, Option.map_none, Option.toList_none]
        exact (visits_note _ _ _).after fun _ _ => visits_pure _

lemma visits_lowerStatements (storage : Storage) (ss : List Statement) :
    Visits facts (ss.filterMap fun t => (t.extract? facts).map fun x => Construct.extract x.1 x.2)
      (lowerStatements facts storage ss) := by
  induction ss with
  | nil => exact visits_pure _
  | cons s ss ih =>
    have := (visits_lowerStatement storage s).bind fun head _ => ih.map fun rest =>
      visits_pure (head.append rest)
    cases hs : s.extract? facts <;> simpa [hs, lowerStatements] using this

lemma visits_lowerState (storage : Storage) (s : State) (index : ℕ) (ht : s.isTerminal = false) :
    Visits facts (s.constructs facts) (lowerState facts storage s index) := by
  simp only [State.constructs, ht, Bool.false_eq_true, if_false]
  exact (visits_lowerStatements storage s.statements).map fun _ => visits_pure _

lemma visits_lowerStates (storage : Storage) (count ordinal : ℕ) (ss : List State) :
    Visits facts (ss.flatMap (State.constructs facts))
      (lowerStates facts storage count ordinal ss) := by
  induction ss generalizing ordinal with
  | nil => exact visits_pure _
  | cons s ss ih =>
    simp only [List.flatMap_cons, lowerStates]
    refine Visits.bind ?_ fun sec _ => (visits_note _ _ _).after fun _ _ => (ih _).map fun _ =>
      visits_pure _
    split
    · next hr =>
      have : s.constructs facts = [] := by simp [State.constructs, State.isTerminal, hr]
      rw [this]
      exact visits_value _
    · split
      · next ha =>
        have : s.constructs facts = [] := by simp [State.constructs, State.isTerminal, ha]
        rw [this]
        exact visits_value _
      · exact visits_lowerState storage s ordinal (by simp_all [State.isTerminal])

lemma visits_lower (u : ParserUnit) : Visits facts (u.constructs facts) (lower facts u) := by
  refine (visits_note _ _ _).after fun _ _ => ?_
  refine (visits_lowerTuples u).bind fun t _ => ?_
  exact (visits_lowerStates _ _ _ _).map fun _ => (visits_note _ _ _).after fun _ _ => visits_pure _

/-! ### What is reported -/

namespace Construct

lemma warning?_kind {c : Construct} {d : Diagnostic} (h : c.warning? facts = some d) :
    d.kind = .extractTargetIgnored := by
  unfold warning? at h
  split at h
  · split at h
    · obtain rfl := Option.some.inj h
      rfl
    · cases h
  · cases h

lemma lookup_isSome_iff {earlier : List LocalDecl} {storage : String} :
    ((earlier.filterMap LocalDecl.owner?).lookup storage).isSome = true ↔
      ∃ e ∈ earlier, e.controlName = some storage := by
  induction earlier with
  | nil => simp
  | cons l ls ih =>
    cases hn : l.controlName with
    | none => simp [LocalDecl.owner?, hn, ih]
    | some s =>
      by_cases hs : storage = s
      · simp [LocalDecl.owner?, hn, hs]
      · have hb : (storage == s) = false := by simpa using hs
        have hs' : ¬ s = storage := fun h => hs h.symm
        simp [LocalDecl.owner?, hn, List.lookup_cons, hb, hs', ih]

/-- A construct is at fault when it offends. -/
lemma fault?_isSome_iff {c : Construct} (hc : ∀ earlier l, c = .valueSet earlier l →
    l.controlName.isSome = true) : (c.fault? facts).isSome = true ↔ c.Offends facts := by
  cases c with
  | param p =>
    cases hr : facts.resolve p.type <;>
      simp [fault?, Offends, hr, ResolvedType.asAggregate]
  | extract args span =>
    cases hr : (lowerExtract facts args span).result <;> simp [fault?, Offends, hr]
  | valueSet earlier l =>
    obtain ⟨storage, hs⟩ := Option.isSome_iff_exists.mp (hc earlier l rfl)
    have hiff := @lookup_isSome_iff earlier storage
    simp only [fault?, Offends, hs, Option.getD_some, ← hiff]
    cases hl : (earlier.filterMap LocalDecl.owner?).lookup storage with
    | some first => simp
    | none => cases hw : (facts.resolve l.type).width <;> simp

end Construct

lemma constructs_valueSet {earlier ls : List LocalDecl} {c : Construct}
    (h : c ∈ LocalDecl.constructs earlier ls) : ∃ before l, c = .valueSet before l ∧
      l.controlName.isSome = true := by
  induction ls generalizing earlier with
  | nil => simp [LocalDecl.constructs] at h
  | cons l ls ih =>
    rcases List.mem_append.mp h with h | h
    · split at h
      · next hl => exact ⟨earlier, l, by simpa using h, hl⟩
      · cases h
    · exact ih h

lemma constructs_fault?_iff {u : ParserUnit} {c : Construct} (h : c ∈ u.constructs facts) :
    (c.fault? facts).isSome = true ↔ c.Offends facts := by
  refine Construct.fault?_isSome_iff fun earlier l hc => ?_
  subst hc
  simp only [ParserUnit.constructs, List.mem_append, List.mem_flatMap] at h
  rcases h with (h | h) | ⟨s, -, h⟩
  · simp at h
  · obtain ⟨before, l', hc, hl⟩ := constructs_valueSet h
    obtain ⟨-, rfl⟩ := Construct.valueSet.inj hc
    exact hl
  · unfold State.constructs at h
    split at h
    · cases h
    · simp at h

/-- **The first error wins.** Lowering succeeds when no construct offends, and then reports a
warning for each extraction into a header that is no member. Otherwise the error is that of the
first construct that offends; it is reported once, at the place of the construct, after the warnings
about the constructs before it, and nothing else is. All this comes after what had been reported
before. -/
theorem lower_first_error (facts : Facts) (u : ParserUnit) (before : List Diagnostic) :
    ((∃ p, ((lower facts u).after before).result = .ok p) ↔
      ∀ c ∈ u.constructs facts, ¬ c.Offends facts) ∧
    ((∃ p, ((lower facts u).after before).result = .ok p ∧
        ((lower facts u).after before).diagnostics =
          before ++ Construct.warnings facts (u.constructs facts)) ∨
      ∃ pre c post e d, u.constructs facts = pre ++ c :: post ∧
        (∀ b ∈ pre, ¬ b.Offends facts) ∧ c.Offends facts ∧ c.fault? facts = some e ∧
        ((lower facts u).after before).result = .error e ∧
        ((lower facts u).after before).diagnostics =
          before ++ Construct.warnings facts pre ++ [d] ∧
        d.kind = e.kind ∧ d.isError = true ∧ d.range = c.span.map Diagnostic.collapse ∧
        d.message = e.kind.message (some e.detail) ∧
        d.hints = e.kind.hint.toList ++ e.hint.toList) ∧
    ∀ w ∈ Construct.warnings facts (u.constructs facts), w.kind = .extractTargetIgnored := by
  have hiff : ∀ c ∈ u.constructs facts, (c.fault? facts = none ↔ ¬ c.Offends facts) := by
    intro c hc
    rw [← constructs_fault?_iff hc, Bool.not_eq_true, Option.isSome_eq_false_iff,
      Option.isNone_iff_eq_none]
  have hkinds : ∀ w ∈ Construct.warnings facts (u.constructs facts),
      w.kind = .extractTargetIgnored := fun w hw => by
    obtain ⟨c, -, hc⟩ := List.mem_filterMap.mp hw
    exact Construct.warning?_kind hc
  have hv : Visits facts (u.constructs facts) (lower facts u) := visits_lower u
  simp only [Pass.after_result, Pass.after_diagnostics]
  generalize lower facts u = pass at hv
  generalize u.constructs facts = cs at hv hiff hkinds
  cases hv with
  | @all _ log p h =>
    refine ⟨⟨fun _ c hc => (hiff c hc).mp (h c hc), fun _ => ⟨p, rfl⟩⟩, .inl ⟨p, rfl, rfl⟩, hkinds⟩
  | @upTo pre post c log e hpre hc =>
    have hoff : c.Offends facts := by
      by_contra hno
      rw [(hiff c (by simp)).mpr hno] at hc
      cases hc
    refine ⟨⟨fun ⟨p, hp⟩ => (by cases hp), fun h => absurd hoff (h c (by simp))⟩, .inr ?_, hkinds⟩
    refine ⟨pre, c, post, e, e.diagnostic c.span, rfl, fun b hb => ?_, hoff, hc, rfl, ?_, rfl, ?_,
      rfl, rfl, rfl⟩
    · exact (hiff b (by simp [hb])).mp (hpre b hb)
    · rw [List.append_assoc]
    · cases e <;> rfl

end PacketSections
