import Mathlib
import PacketSections.Lowering.Sections

/-!
What a successful computation is made of.

Lowering is a chain of computations, and the chain succeeds exactly when every link does. Opening a
chain this way leaves one fact for each link. What has been reported before a computation stays in
front of its own reports and has no bearing on its result.
-/

namespace PacketSections.Pass

variable {α β : Type}

/-- A chain succeeds when its first link does and the rest does on its value. -/
@[simp] lemma bind_ok_iff {p : Pass α} {f : α → Pass β} {b : β} :
    (p >>= f).result = .ok b ↔ ∃ a, p.result = .ok a ∧ (f a).result = .ok b := by
  obtain ⟨log, diagnostics, result⟩ := p
  cases result <;> simp [bind_def, andThen]

@[simp] lemma pure_result (a : α) : (pure a : Pass α).result = .ok a := rfl

@[simp] lemma map_ok_iff {f : α → β} {p : Pass α} {b : β} :
    (f <$> p).result = .ok b ↔ ∃ a, p.result = .ok a ∧ f a = b := by
  rw [map_eq_pure_bind, bind_ok_iff]
  simp

@[simp] lemma value_result (a : α) : (value a).result = .ok a := rfl

@[simp] lemma note_result (level : LogLevel) (topic : Topic) (message : String) :
    (note level topic message).result = .ok () := rfl

@[simp] lemma report_result (d : Diagnostic) : (report d).result = .ok () := rfl

@[simp] lemma fail_result (e : LowerError) (span : Option Span) :
    (fail e span : Pass α).result = .error e := rfl

@[simp] lemma check_result (span : Option Span) (r : Except LowerError α) :
    (check span r).result = r := by
  cases r <;> rfl

/-! ### Earlier reports -/

/-- The computation, once some diagnostics have been reported. -/
def after (before : List Diagnostic) (p : Pass α) : Pass α := do
  before.forM report
  p

lemma after_cons (d : Diagnostic) (before : List Diagnostic) (p : Pass α) :
    p.after (d :: before) = report d >>= fun _ => p.after before := by
  simp [after]

/-- What is reported comes after what was reported before. -/
lemma after_diagnostics (before : List Diagnostic) (p : Pass α) :
    (p.after before).diagnostics = before ++ p.diagnostics := by
  induction before with
  | nil => rfl
  | cons d before ih =>
    rw [after_cons, List.cons_append, ← ih]
    rfl

/-- Earlier reports do not change the result. -/
lemma after_result (before : List Diagnostic) (p : Pass α) :
    (p.after before).result = p.result := by
  induction before with
  | nil => rfl
  | cons d before ih =>
    rw [after_cons, ← ih]
    rfl

end PacketSections.Pass

namespace PacketSections.Lowering

@[simp] lemma layoutOf_result (facts : Facts) (t : ResolvedType) (bare : Bool) :
    (layoutOf facts t bare).result = .ok (facts.layout t bare).text := rfl

end PacketSections.Lowering
