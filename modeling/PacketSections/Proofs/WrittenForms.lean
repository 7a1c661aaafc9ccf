import Mathlib
import PacketSections.Proofs.IndexedHolders
import PacketSections.Proofs.Readable

/-!
Two ways of writing an expression.

Expressions are written in one way for people and in another in the language of sections. The first
shows the width of a constant, spells truth values, and leaves out the outermost brackets; the
second does none of this. Extractions name their fields in the first way and assignments in the
second. The texts are the same exactly when no part of the expression is written differently: a
difference in one place is never made up for in another, whatever the names are.
-/

namespace PacketSections

open Lowering

namespace Expr

/-- Whether no part is written differently, apart from brackets around the whole: constants have no
width, there are no truth values, and what has two operands is an operand itself. -/
def alike : Expr → Bool
  | path _ _ => true
  | member base _ _ => !base.isBinary && base.alike
  | index base i _ => (!base.isBinary && base.alike) && (!i.isBinary && i.alike)
  | slice base _ _ _ => !base.isBinary && base.alike
  | constant _ width _ => width.isNone
  | bool _ _ => false
  | unary _ operand _ => operand.alike
  | binary _ lhs rhs _ => lhs.alike && rhs.alike

/-! ### Characters -/

/-- The bounds of a slice, in brackets. -/
def bounds (hi lo : UInt32) : List Char :=
  '[' :: (Nat.toDigits 10 hi.toNat ++ ':' :: (Nat.toDigits 10 lo.toNat ++ [']']))

/-- Brackets around the characters of an operand that has two operands itself. -/
def enclose (e : Expr) (cs : List Char) : List Char :=
  if e.isBinary then '(' :: (cs ++ [')']) else cs

/-- The characters of the written form. -/
def written : Expr → List Char
  | path name _ => name.toList
  | member base name _ => base.written ++ '.' :: name.toList
  | index base i _ => base.written ++ '[' :: (i.written ++ [']'])
  | slice base hi lo _ => base.written ++ bounds hi lo
  | constant value none _ => Nat.toDigits 10 value.toNat
  | constant value (some width) _ =>
    Nat.toDigits 10 width.toNat ++ 'w' :: Nat.toDigits 10 value.toNat
  | bool value _ => if value then "true".toList else "false".toList
  | unary op e _ => op.text.toList ++ e.enclose e.written
  | binary op lhs rhs _ =>
    lhs.enclose lhs.written ++ ' ' :: (op.text.toList ++ ' ' :: rhs.enclose rhs.written)

/-- The same where the expression is an operand. -/
def asOperand (e : Expr) : List Char := e.enclose e.written

/-- The characters in the language of sections. -/
def converted : Expr → List Char
  | path name _ => name.toList
  | member base name _ => base.converted ++ '.' :: name.toList
  | index base i _ => base.converted ++ '[' :: (i.converted ++ [']'])
  | slice base hi lo _ => base.converted ++ bounds hi lo
  | constant value _ _ => Nat.toDigits 10 value.toNat
  | bool value _ => if value then ['1'] else ['0']
  | unary op e _ => op.text.toList ++ e.converted
  | binary op lhs rhs _ =>
    '(' :: (lhs.converted ++ ' ' :: (op.text.toList ++ ' ' :: (rhs.converted ++ [')'])))

lemma toList_bracket (e : Expr) (text : String) :
    (e.bracket text).toList = e.enclose text.toList := by
  unfold bracket enclose
  split <;> simp

lemma toList_text (e : Expr) : e.text.toList = e.written := by
  induction e with
  | constant value width span => cases width <;> simp [text, written]
  | bool value span => cases value <;> rfl
  | _ => simp [text, written, bounds, toList_bracket, *]

lemma toList_convert (e : Expr) : e.convert.toList = e.converted := by
  induction e with
  | bool value span => cases value <;> simp [convert, converted]
  | _ => simp [convert, converted, bounds, *]

lemma asOperand_of_isBinary {e : Expr} (h : e.isBinary = false) : e.asOperand = e.written := by
  simp [asOperand, enclose, h]

lemma asOperand_binary (op : BinaryOp) (lhs rhs : Expr) (span : Option Span) :
    (binary op lhs rhs span).asOperand =
      '(' :: (lhs.asOperand ++ ' ' :: (op.text.toList ++ ' ' :: (rhs.asOperand ++ [')']))) := by
  simp [asOperand, enclose, isBinary, written]

end Expr

/-! ### What comes after -/

/-- A character that ends a name or a number, and opens nothing. -/
def Ends (c : Char) : Prop := c.isAlphanum = false ∧ c ≠ '('

instance (c : Char) : Decidable (Ends c) := inferInstanceAs (Decidable (_ ∧ _))

/-- What can come after an expression in a text. -/
def Closing (rest : List Char) : Prop := ∀ c ∈ rest.head?, Ends c

lemma closing_nil : Closing [] := by
  simp [Closing]

lemma closing_cons {c : Char} (hc : Ends c) (rest : List Char) : Closing (c :: rest) := by
  simpa [Closing] using hc

/-! ### Brackets in front -/

/-- Whatever comes after them, the first text is not the second one with more brackets in front. -/
def Unbracketed (as bs : List Char) : Prop :=
  ∀ (rest other : List Char) (k : ℕ), Closing rest →
    as ++ rest ≠ List.replicate (k + 1) '(' ++ (bs ++ other)

namespace Unbracketed

variable {as bs : List Char}

lemma refl (name : List Char) : Unbracketed name name := by
  intro rest other k hrest h
  induction name with
  | nil =>
    rw [List.nil_append, List.replicate_succ, List.cons_append] at h
    exact (hrest '(' (by rw [h]; rfl)).2 rfl
  | cons c name ih =>
    rw [List.replicate_succ, List.cons_append, List.cons_append, List.cons.injEq] at h
    obtain ⟨rfl, h⟩ := h
    refine ih ?_
    rw [h, List.replicate_succ', List.append_assoc]
    rfl

lemma of_head {c : Char} (hc : c ≠ '(') (as bs : List Char) : Unbracketed (c :: as) bs := by
  intro rest other k _ h
  rw [List.replicate_succ, List.cons_append, List.cons_append, List.cons.injEq] at h
  exact hc h.1

/-- What comes after does not matter. -/
lemma append (h : Unbracketed as bs) {c : Char} (hc : Ends c) (cs ds : List Char) :
    Unbracketed (as ++ c :: cs) (bs ++ ds) := by
  intro rest other k _
  rw [List.append_assoc, List.append_assoc, List.cons_append]
  exact h _ _ k (closing_cons hc _)

/-- One more bracket in front of the second text. -/
lemma right (h : Unbracketed as bs) : Unbracketed as ('(' :: bs) := by
  intro rest other k hrest
  have hmore : List.replicate (k + 1) '(' ++ ('(' :: bs ++ other) =
      List.replicate (k + 1 + 1) '(' ++ (bs ++ other) := by
    rw [List.replicate_succ' (n := k + 1), List.append_assoc]
    rfl
  rw [hmore]
  exact h rest other (k + 1) hrest

lemma both (h : Unbracketed as bs) : Unbracketed ('(' :: as) ('(' :: bs) := by
  intro rest other k hrest heq
  rw [List.replicate_succ, List.cons_append, List.cons_append, List.cons.injEq] at heq
  refine h rest other k hrest ?_
  rw [heq.2, List.replicate_succ', List.append_assoc]
  rfl

end Unbracketed

lemma unbracketed_digits (n : ℕ) (as bs : List Char) :
    Unbracketed (Nat.toDigits 10 n ++ as) bs := by
  obtain ⟨c, cs, hcs⟩ := List.exists_cons_of_ne_nil (Nat.toDigits_ne_nil (b := 10) (n := n))
  have hc : c ≠ '(' := by
    rintro rfl
    have hmem : '(' ∈ Nat.toDigits 10 n := by
      rw [hcs]
      exact List.mem_cons_self ..
    exact notMem_digits (by decide) hmem
  rw [hcs]
  exact .of_head hc _ bs

/-- The converted form has no brackets in front that the written form goes without. -/
lemma unbracketed_written (e : Expr) :
    Unbracketed e.asOperand e.converted ∧ Unbracketed e.written e.converted := by
  have hplain {e : Expr} (hb : e.isBinary = false) (h : Unbracketed e.written e.converted) :
      Unbracketed e.asOperand e.converted ∧ Unbracketed e.written e.converted := by
    rw [Expr.asOperand_of_isBinary hb]
    exact ⟨h, h⟩
  induction e with
  | path name span => exact hplain rfl (.refl name.toList)
  | member base name span ih => exact hplain rfl (ih.2.append (by decide) _ _)
  | index base i span ih => exact hplain rfl (ih.2.append (by decide) _ _)
  | slice base hi lo span ih => exact hplain rfl (ih.2.append (by decide) _ _)
  | constant value width span =>
    cases width with
    | none => exact hplain rfl (.refl (Nat.toDigits 10 value.toNat))
    | some width => exact hplain rfl (unbracketed_digits width.toNat _ _)
  | bool value span =>
    cases value with
    | false => exact hplain rfl (.of_head (by decide) _ _)
    | true => exact hplain rfl (.of_head (by decide) _ _)
  | unary op operand span =>
    cases op with
    | not => exact hplain rfl (.of_head (by decide) _ _)
    | complement => exact hplain rfl (.of_head (by decide) _ _)
    | negate => exact hplain rfl (.of_head (by decide) _ _)
  | binary op lhs rhs span ih =>
    rw [Expr.asOperand_binary]
    exact ⟨(ih.1.append (by decide) _ _).both, (ih.1.append (by decide) _ _).right⟩

/-! ### Both forms -/

/-- Whatever comes after them, the texts are the same when `P` holds and the same comes after. -/
def Meet (as bs : List Char) (P : Prop) : Prop :=
  ∀ rest other : List Char, Closing rest → Closing other →
    (as ++ rest = bs ++ other ↔ P ∧ rest = other)

namespace Meet

variable {as bs cs ds : List Char} {P Q : Prop}

lemma iff (h : Meet as bs P) (hPQ : P ↔ Q) : Meet as bs Q := by
  intro rest other hrest hother
  rw [h rest other hrest hother, hPQ]

lemma refl (name : List Char) : Meet name name True := by
  intro rest other _ _
  rw [List.append_cancel_left_eq, true_and]

lemma of_head {c d : Char} (hcd : c ≠ d) (as bs : List Char) : Meet (c :: as) (d :: bs) False := by
  intro rest other _ _
  rw [List.cons_append, List.cons_append, List.cons.injEq]
  simp [hcd]

lemma of_unbracketed (h : Unbracketed as bs) : Meet as ('(' :: bs) False := by
  intro rest other hrest _
  rw [false_and, iff_false]
  exact h rest other 0 hrest

/-- The same text in front. -/
lemma front (h : Meet as bs P) (cs : List Char) : Meet (cs ++ as) (cs ++ bs) P := by
  intro rest other hrest hother
  rw [List.append_assoc, List.append_assoc, List.append_cancel_left_eq, h rest other hrest hother]

/-- One text after the other, with a character between them. -/
lemma append (h : Meet as bs P) {c : Char} (hc : Ends c) (h' : Meet cs ds Q) :
    Meet (as ++ c :: cs) (bs ++ c :: ds) (P ∧ Q) := by
  intro rest other hrest hother
  rw [List.append_assoc, List.append_assoc, List.cons_append, List.cons_append,
    h _ _ (closing_cons hc _) (closing_cons hc _), List.cons.injEq, h' rest other hrest hother]
  tauto

end Meet

/-- The width of a constant shows. -/
lemma meet_sized (m n : ℕ) :
    Meet (Nat.toDigits 10 m ++ 'w' :: Nat.toDigits 10 n) (Nat.toDigits 10 n) False := by
  intro rest other _ hother
  rw [false_and, iff_false]
  intro h
  have hdigit (n : ℕ) : ∀ c ∈ Nat.toDigits 10 n, c.isDigit = true := fun c hc =>
    Nat.isDigit_of_mem_toDigits (by omega) (by omega) hc
  cases other with
  | nil =>
    have hw : 'w' ∈ Nat.toDigits 10 n := by
      rw [List.append_nil] at h
      rw [← h]
      simp
    exact notMem_digits (by decide) hw
  | cons c other =>
    have hc : c.isAlphanum = false := (hother c rfl).1
    have hno : ¬ c.isDigit = true := by
      intro hd
      simp [Char.isAlphanum, hd] at hc
    rw [List.append_assoc, List.cons_append] at h
    obtain ⟨-, rfl, -⟩ := append_cons_inj (hdigit m) (hdigit n) (by decide) hno h
    cases hc

lemma meet_written (e : Expr) :
    Meet e.asOperand e.converted (e.alike = true) ∧
      Meet e.written e.converted (e.isBinary = false ∧ e.alike = true) := by
  have hplain {e : Expr} (hb : e.isBinary = false)
      (h : Meet e.written e.converted (e.alike = true)) :
      Meet e.asOperand e.converted (e.alike = true) ∧
        Meet e.written e.converted (e.isBinary = false ∧ e.alike = true) := by
    rw [Expr.asOperand_of_isBinary hb]
    exact ⟨h, h.iff (by simp [hb])⟩
  induction e with
  | path name span => exact hplain rfl ((Meet.refl _).iff (by simp [Expr.alike]))
  | member base name span ih =>
    exact hplain rfl ((ih.2.append (by decide) (.refl _)).iff (by simp [Expr.alike]))
  | index base i span ihb ihi =>
    exact hplain rfl ((ihb.2.append (by decide) (ihi.2.append (by decide) (.refl _))).iff
      (by simp [Expr.alike]))
  | slice base hi lo span ih =>
    exact hplain rfl ((ih.2.append (by decide) (.refl _)).iff (by simp [Expr.alike]))
  | constant value width span =>
    cases width with
    | none => exact hplain rfl ((Meet.refl _).iff (by simp [Expr.alike]))
    | some width => exact hplain rfl ((meet_sized _ _).iff (by simp [Expr.alike]))
  | bool value span =>
    cases value with
    | false => exact hplain rfl ((Meet.of_head (by decide) _ _).iff (by simp [Expr.alike]))
    | true => exact hplain rfl ((Meet.of_head (by decide) _ _).iff (by simp [Expr.alike]))
  | unary op operand span ih => exact hplain rfl (ih.1.front op.text.toList)
  | binary op lhs rhs span ihl ihr =>
    constructor
    · rw [Expr.asOperand_binary]
      have hrhs : Meet (op.text.toList ++ ' ' :: (rhs.asOperand ++ [')']))
          (op.text.toList ++ ' ' :: (rhs.converted ++ [')'])) (rhs.alike = true ∧ True) :=
        ((ihr.1.append (by decide) (.refl [])).front [' ']).front op.text.toList
      exact ((ihl.1.append (by decide) hrhs).front ['(']).iff (by simp [Expr.alike])
    · -- the written form starts with the first operand, the other one with a bracket
      have hlhs := (unbracketed_written lhs).1
      exact (Meet.of_unbracketed (hlhs.append (by decide) _ _)).iff (by simp [Expr.isBinary])

/-- The two forms of an expression are the same when no part is written differently. -/
theorem Expr.text_eq_convert_iff (e : Expr) :
    e.text = e.convert ↔ e.isBinary = false ∧ e.alike = true := by
  have h := (meet_written e).2 [] [] closing_nil closing_nil
  rw [List.append_nil, List.append_nil, ← toList_text, ← toList_convert, String.toList_inj] at h
  simpa using h

/-! ### Fields of extracted headers -/

variable {u : ParserUnit}

/-- The text that an assignment to a member of an expression is given. -/
lemma convert_member (storage : Storage) (a : Expr) (name : String) (span : Option Span) :
    convert u.facts storage (.member a name span) = a.convert ++ "." ++ name := rfl

lemma target_eq_convert_iff {a : Expr} (hm : a.asMember.isSome = true) (storage : Storage)
    (name : String) (span : Option Span) :
    a.text ++ "." ++ name = convert u.facts storage (.member a name span) ↔ a.alike = true := by
  have hb : a.isBinary = false := by
    cases a with
    | binary => cases hm
    | _ => rfl
  rw [convert_member, String.append_left_inj, String.append_left_inj, Expr.text_eq_convert_iff, hb]
  simp

/-- What an extraction adds, by the names of the fields. -/
lemma updates_of_target? (storage : Storage) {stmt : Statement} {a : Expr}
    {fields : List (String × ResolvedType)} (ha : stmt.target? u = some (a, fields)) :
    ∃ (copies : List Update) (count : Update), stmt.updates u storage = copies ++ [count] ∧
      count.target = "TopParser_extracts.size" ∧
      List.Forall₂ (fun name w => w.target = a.text ++ "." ++ name)
        ("isValid" :: fields.map Prod.fst) copies := by
  cases stmt with
  | call method args span =>
    simp only [Statement.updates, ha]
    refine ⟨_ :: fields.map (fun f => ⟨a.text ++ "." ++ f.1, f.1⟩), _, rfl, rfl, .cons ?_ ?_⟩
    · rw [String.append_assoc]
      rfl
    · rw [List.forall₂_map_left_iff, List.forall₂_map_right_iff]
      exact List.forall₂_same.mpr fun f _ => rfl
  | _ => cases ha

/-- **Fields of an extracted header and assignments to them.** The updates of an extraction name the
fields by the written form of the header. This is how an assignment to the same field names it
exactly when no part of that form is written differently in the language of sections. -/
theorem lower_extract_targets {u : ParserUnit} {p : Program} (h : u.lower.result = .ok p) {i : ℕ}
    {s : State} (hs : u.states[i]? = some s) (hgoes : s.isTerminal = false) {stmt : Statement}
    (hstmt : stmt ∈ s.statements) {a : Expr} {fields : List (String × ResolvedType)}
    (ha : stmt.target? u = some (a, fields)) :
    ∃ (sec : Section) (copies : List Update) (count : Update), p.sections[i]? = some sec ∧
      copies ++ [count] <:+: sec.updates ∧ count.target = "TopParser_extracts.size" ∧
      List.Forall₂ (fun name w => w.target = a.text ++ "." ++ name ∧
          ∀ span, w.target = convert u.facts p.storage (.member a name span) ↔ a.alike = true)
        ("isValid" :: fields.map Prod.fst) copies := by
  obtain ⟨sec, hsec, hinfix⟩ := lower_updates_infix h hs hgoes hstmt
  obtain ⟨copies, count, hupdates, hcount, hcopies⟩ := updates_of_target? p.storage ha
  rw [hupdates] at hinfix
  refine ⟨sec, copies, count, hsec, hinfix, hcount, hcopies.imp fun name w hw => ⟨hw, ?_⟩⟩
  intro span
  rw [hw]
  exact target_eq_convert_iff (Statement.target?_eq_some ha).1 p.storage name span

/-- With an index that has no width, both name the field alike. -/
theorem lower_extract_targets_plain :
    ∃ (p : Program) (sec : Section) (copies : List Update),
      (slotParser (.constant 1 none none)).lower.result = .ok p ∧ p.sections[0]? = some sec ∧
      List.Forall₂ (fun name w => w.target = convert (slotParser (.constant 1 none none)).facts
          p.storage (.member (slotTag (.constant 1 none none)) name none))
        ["isValid", "kind", "more"] copies ∧ copies <:+: sec.updates := by
  obtain ⟨p, hp⟩ : ∃ p, (slotParser (.constant 1 none none)).lower.result = .ok p := ⟨_, rfl⟩
  have htarget : (slotExtract (.constant 1 none none)).target?
      (slotParser (.constant 1 none none)) =
        some (slotTag (.constant 1 none none), [("kind", .bits 8), ("more", .bits 4)]) := rfl
  obtain ⟨sec, copies, count, hsec, hinfix, -, hcopies⟩ :=
    lower_extract_targets hp (i := 0) rfl (by decide) (List.mem_cons_self ..) htarget
  refine ⟨p, sec, copies, hp, hsec, hcopies.imp fun name w hw => ?_, ?_⟩
  · exact (hw.2 none).mpr (by decide)
  · exact (List.prefix_append copies [count]).isInfix.trans hinfix

/-- With an index of eight bits, the field that is extracted and the same field in the assignment
after it have two names. -/
theorem lower_extract_target_sized :
    ∃ (p : Program) (sec : Section),
      (slotParser (.constant 1 (some 8) none)).lower.result = .ok p ∧ p.sections[0]? = some sec ∧
      (slotExtract (.constant 1 (some 8) none)).target? (slotParser (.constant 1 (some 8) none)) =
        some (slotTag (.constant 1 (some 8) none), [("kind", .bits 8), ("more", .bits 4)]) ∧
      ⟨"hdr.slots[8w1].tag.kind", "kind"⟩ ∈ sec.updates ∧
      convert (slotParser (.constant 1 (some 8) none)).facts p.storage
        (.member (slotTag (.constant 1 (some 8) none)) "kind" none) = "hdr.slots[1].tag.kind" ∧
      ⟨"hdr.slots[1].tag.kind", "3"⟩ ∈ sec.updates := by
  refine ⟨_, _, rfl, rfl, rfl, ?_, ?_, ?_⟩
  · decide
  · decide
  · decide

end PacketSections
