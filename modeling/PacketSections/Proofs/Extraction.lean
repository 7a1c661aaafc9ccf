import Mathlib
import PacketSections.Proofs.Simulation

/-!
What becomes of a call that extracts a header.

Much is checked about the header and about what it is a member of before anything is done. By the
declarations of a parser the type of a member is that of the field it names, and some of the checks
never fail. The cases that are left are said here once: which calls are refused and why, which are
passed over, and what the others add to a section. A call that is refused adds nothing, also when a
section is changed in place.
-/

namespace PacketSections

open Lowering Text

variable {facts : Facts}

/-! ### Fields of bits -/

namespace BitField

/-- The bits of all fields together. -/
def total (fs : List BitField) : ℕ := (fs.map fun f => f.bits.toNat).sum

end BitField

namespace ResolvedType

/-- Whether it is a fixed number of bits. -/
def isBits : ResolvedType → Bool
  | bits _ => true
  | _ => false

lemma isHeader_iff {t : ResolvedType} :
    t.isHeader = true ↔ ∃ owner fields, t = .aggregate .header owner fields := by
  constructor
  · intro h
    cases t with
    | aggregate kind owner fields =>
      cases kind with
      | header => exact ⟨owner, fields, rfl⟩
      | _ => cases h
    | _ => cases h
  · rintro ⟨owner, fields, rfl⟩
    rfl

/-- Bit fields as the fields of a header. -/
def ofBits (fs : List BitField) : List (String × ResolvedType) :=
  fs.map fun f => (f.name, .bits f.bits)

lemma headerBits_ofBits (fs : List BitField) : headerBits (ofBits fs) = BitField.total fs := by
  simp [headerBits, ofBits, BitField.total, fieldBits, Function.comp_def]

lemma exists_ofBits {fields : List (String × ResolvedType)}
    (h : ∀ f ∈ fields, f.2.isBits = true) : ∃ fs, fields = ofBits fs := by
  induction fields with
  | nil => exact ⟨[], rfl⟩
  | cons f fields ih =>
    obtain ⟨name, t⟩ := f
    obtain ⟨fs, rfl⟩ := ih fun g hg => h g (List.mem_cons_of_mem _ hg)
    have ht := h (name, t) (List.mem_cons_self ..)
    cases t with
    | bits w => exact ⟨⟨name, w⟩ :: fs, rfl⟩
    | _ => cases ht

lemma fieldLeaves_ofBits (path : List String) (fs : List BitField) :
    fieldLeaves path (ofBits fs) =
      fs.map fun f => .field ⟨joinPath (path ++ [f.name]), f.bits⟩ := by
  induction fs with
  | nil => rfl
  | cons f fs ih =>
    have hcons : ofBits (f :: fs) = (f.name, .bits f.bits) :: ofBits fs := rfl
    rw [hcons, fieldLeaves, ih]
    rfl

/-- A header of bit fields is laid out as these, when it goes without its validity bit. -/
lemma flatten_ofBits (owner : String) (fs : List BitField) :
    (aggregate .header owner (ofBits fs)).flatten true = fs := by
  have hleaves : (aggregate .header owner (ofBits fs)).leaves true = fieldLeaves [] (ofBits fs) :=
    rfl
  rw [flatten, hleaves, fieldLeaves_ofBits, List.filterMap_map]
  have hfield : (Leaf.field? ∘ fun f : BitField => .field ⟨joinPath ([] ++ [f.name]), f.bits⟩) =
      some := by
    funext f
    simp [Leaf.field?, joinPath]
  rw [hfield, List.filterMap_some]

end ResolvedType

/-! ### Widths -/

lemma headerWidth_isBits {target : String} {type : ResolvedType} {n w : UInt32}
    {fields : List (String × ResolvedType)} (h : headerWidth target type n fields = .ok w) :
    ∀ f ∈ fields, f.2.isBits = true := by
  induction fields generalizing n with
  | nil => simp
  | cons f fields ih =>
    obtain ⟨name, t⟩ := f
    cases t with
    | bits v =>
      simp only [headerWidth] at h
      split at h
      · exact List.forall_mem_cons.mpr ⟨rfl, ih h⟩
      · cases h
    | _ => simp [headerWidth] at h

/-- The sum of the widths fails at the first field that is no bits, or where it gets too large. -/
lemma headerWidth_error {target : String} {type : ResolvedType} {n : UInt32}
    {fields : List (String × ResolvedType)} {e : LowerError}
    (h : headerWidth target type n fields = .error e) :
    (∃ f ∈ fields, f.2.isBits = false ∧ e = .headerField target f.1 f.2) ∨
    (2 ^ 32 ≤ n.toNat + ResolvedType.headerBits fields ∧ e = .headerWidth target type) := by
  induction fields generalizing n with
  | nil => simp [headerWidth] at h
  | cons f fields ih =>
    obtain ⟨name, t⟩ := f
    cases t with
    | bits v =>
      have hbits : ResolvedType.headerBits ((name, .bits v) :: fields) =
          v.toNat + ResolvedType.headerBits fields := by
        simp [ResolvedType.headerBits, ResolvedType.fieldBits]
      rw [hbits]
      simp only [headerWidth] at h
      split at h
      · next total htotal =>
        have hsum := addWidths_toNat htotal
        rcases ih h with ⟨f, hf, hno, he⟩ | ⟨hlarge, he⟩
        · exact .inl ⟨f, List.mem_cons_of_mem _ hf, hno, he⟩
        · exact .inr ⟨by omega, he⟩
      · next hnone =>
        have hlarge : 2 ^ 32 ≤ n.toNat + v.toNat := by
          unfold addWidths at hnone
          split at hnone
          · cases hnone
          · next hlt => exact Nat.le_of_not_lt hlt
        refine .inr ⟨by omega, ?_⟩
        exact (Except.error.inj h).symm
    | _ =>
      simp only [headerWidth, Except.error.injEq] at h
      exact .inl ⟨_, List.mem_cons_self .., rfl, h.symm⟩

/-! ### Headers -/

/-- Where a member is a header, what it is a member of has parts that need an index, or it is the
header that the field of that name is. -/
lemma findHeader_of_memberType {target base : Expr} {name owner : String}
    {fields : List (String × ResolvedType)}
    (h : (facts.typeOf base).memberType name = .aggregate .header owner fields) :
    findHeader facts target base name =
      if (facts.typeOf base).isIndexed then
        .error (.indexedTarget base.text (facts.typeOf base))
      else (headerWidth target.text (.aggregate .header owner fields) 0 fields).map fun w =>
        ⟨.aggregate .header owner fields, fields, w⟩ := by
  unfold findHeader
  cases hb : facts.typeOf base with
  | stack element size => simp [ResolvedType.isIndexed]
  | aggregate kind parent members =>
    rw [hb] at h
    cases hf : ResolvedType.field? members name with
    | none => simp [ResolvedType.memberType, hf] at h
    | some t =>
      have ht : t = .aggregate .header owner fields := by
        simpa [ResolvedType.memberType, hf] using h
      subst ht
      simp only [ResolvedType.asAggregate, hf]
      cases kind <;> rfl
  | _ => simp [hb, ResolvedType.memberType] at h

/-- What extracting a header with these fields adds to a section. -/
def Body.ofHeader (target : String) (fs : List BitField) : Body where
  layouts := [BitField.block fs]
  updates :=
    ⟨target ++ ".isValid", "1"⟩ :: fs.map (fun f => ⟨target ++ "." ++ f.name, f.name⟩) ++
      [⟨"TopParser_extracts.size",
        "TopParser_extracts.size + " ++ toString (BitField.total fs)⟩]
  increments := [UInt32.ofNat (BitField.total fs)]

lemma extractUpdates_ofBits (target : String) (type : ResolvedType) (fs : List BitField)
    {w : UInt32} (hw : w.toNat = BitField.total fs) :
    extractUpdates target ⟨type, ResolvedType.ofBits fs, w⟩ =
      (Body.ofHeader target fs).updates := by
  have hfields : (ResolvedType.ofBits fs).map (fun f => (⟨target ++ "." ++ f.1, f.1⟩ : Update)) =
      fs.map fun f => ⟨target ++ "." ++ f.name, f.name⟩ := List.map_map
  have hvalid : target ++ "." ++ validityName = target ++ ".isValid" := by
    rw [String.append_assoc]
    rfl
  unfold extractUpdates Body.ofHeader
  rw [hfields, hvalid, hw]
  rfl

/-! ### Outcomes -/

namespace ParserUnit

/-- What can become of a call that extracts, by the declarations of a parser. -/
inductive Extracts (u : ParserUnit) (span : Option Span) : List Expr → Pass Body → Prop
  | arity {args : List Expr} (h : args.length ≠ 1) :
    u.Extracts span args (Pass.fail (.extractArity args.length) span)
  | noHeader {a : Expr} (h : (u.typeOf a).isHeader = false) :
    u.Extracts span [a] (Pass.fail (.targetType a.text (u.typeOf a)) (a.span.or span))
  /-- The header is no member of anything. -/
  | ignored {a : Expr} {owner : String} {fields : List (String × ResolvedType)}
    {log : List LogEntry} (ht : u.typeOf a = .aggregate .header owner fields)
    (hm : a.asMember = none) :
    u.Extracts span [a] ⟨log, [(Diagnostic.ofKind .extractTargetIgnored
      (a.span.or span)).withDetail (ticked a.text)], .ok .empty⟩
  /-- What the header is a member of is a stack or a union. -/
  | indexed {a base : Expr} {name owner : String} {fields : List (String × ResolvedType)}
    (ht : u.typeOf a = .aggregate .header owner fields) (hm : a.asMember = some (base, name))
    (hi : (u.typeOf base).isIndexed = true) :
    u.Extracts span [a]
      (Pass.fail (.indexedTarget base.text (u.typeOf base)) (a.span.or span))
  | field {a base : Expr} {name owner : String} {fields : List (String × ResolvedType)}
    {f : String × ResolvedType} (ht : u.typeOf a = .aggregate .header owner fields)
    (hm : a.asMember = some (base, name)) (hi : (u.typeOf base).isIndexed = false)
    (hf : f ∈ fields) (hno : f.2.isBits = false) :
    u.Extracts span [a] (Pass.fail (.headerField a.text f.1 f.2) (a.span.or span))
  | width {a base : Expr} {name owner : String} {fields : List (String × ResolvedType)}
    (ht : u.typeOf a = .aggregate .header owner fields) (hm : a.asMember = some (base, name))
    (hi : (u.typeOf base).isIndexed = false) (hw : 2 ^ 32 ≤ ResolvedType.headerBits fields) :
    u.Extracts span [a] (Pass.fail (.headerWidth a.text (u.typeOf a)) (a.span.or span))
  | header {a base : Expr} {name owner : String} {fs : List BitField} {log : List LogEntry}
    (ht : u.typeOf a = .aggregate .header owner (ResolvedType.ofBits fs))
    (hm : a.asMember = some (base, name)) (hi : (u.typeOf base).isIndexed = false)
    (hw : BitField.total fs < 2 ^ 32) :
    u.Extracts span [a] ⟨log, [], .ok (Body.ofHeader a.text fs)⟩

variable (u : ParserUnit)

lemma typeOf_of_asMember {a base : Expr} {name : String} (h : a.asMember = some (base, name)) :
    u.typeOf a = (u.typeOf base).memberType name := by
  cases a with
  | member b n span =>
    obtain ⟨rfl, rfl⟩ := Prod.mk.inj (Option.some.inj h)
    rfl
  | _ => cases h

/-- A header that is found and whose width can be counted is extracted. -/
lemma extracts_header {a base : Expr} {name owner : String} {span : Option Span}
    {fields : List (String × ResolvedType)} {w : UInt32}
    (ht : u.typeOf a = .aggregate .header owner fields) (hm : a.asMember = some (base, name))
    (hi : (u.typeOf base).isIndexed = false)
    (hw : headerWidth a.text (.aggregate .header owner fields) 0 fields = .ok w)
    (log : List LogEntry) :
    u.Extracts span [a] ⟨log, [], .ok
      ⟨[(u.facts.layout (.aggregate .header owner fields) true).text],
        extractUpdates a.text ⟨.aggregate .header owner fields, fields, w⟩, [w]⟩⟩ := by
  obtain ⟨fs, rfl⟩ := ResolvedType.exists_ofBits (headerWidth_isBits hw)
  have hsum : w.toNat = BitField.total fs := by
    rw [headerWidth_toNat hw, ResolvedType.headerBits_ofBits]
    simp
  have hlayout : (u.facts.layout (.aggregate .header owner (ResolvedType.ofBits fs)) true).text =
      BitField.block fs := by
    rw [← congrArg BitField.block (ResolvedType.flatten_ofBits owner fs)]
    rfl
  have hincrement : w = UInt32.ofNat (BitField.total fs) := by
    rw [← hsum, UInt32.ofNat_toNat]
  have hlt : BitField.total fs < 2 ^ 32 := by
    rw [← hsum]
    exact w.toNat_lt
  rw [hlayout, extractUpdates_ofBits _ _ fs hsum, hincrement]
  exact .header ht hm hi hlt

/-- These are all the cases. -/
lemma extracts_lowerExtract (args : List Expr) (span : Option Span) :
    u.Extracts span args (lowerExtract u.facts args span) := by
  match args with
  | [] => exact .arity (by simp)
  | _ :: _ :: _ => exact .arity (by simp)
  | [a] =>
    cases hh : (u.facts.typeOf a).isHeader with
    | false =>
      simp only [lowerExtract, hh]
      exact .noHeader hh
    | true =>
      obtain ⟨owner, fields, ht⟩ := ResolvedType.isHeader_iff.mp hh
      cases hm : a.asMember with
      | none =>
        simp only [lowerExtract, hh, hm]
        exact .ignored ht hm
      | some m =>
        obtain ⟨base, name⟩ := m
        have hmember : (u.facts.typeOf base).memberType name = .aggregate .header owner fields := by
          rw [← ht]
          exact (u.typeOf_of_asMember hm).symm
        simp only [lowerExtract, hh, hm, findHeader_of_memberType hmember]
        cases hi : (u.facts.typeOf base).isIndexed with
        | true => exact .indexed ht hm hi
        | false =>
          cases hw : headerWidth a.text (.aggregate .header owner fields) 0 fields with
          | ok w => exact u.extracts_header ht hm hi hw _
          | error e =>
            rcases headerWidth_error hw with ⟨f, hf, hno, rfl⟩ | ⟨hlarge, rfl⟩
            · exact .field ht hm hi hf hno
            · rw [← ht]
              exact .width ht hm hi (by simpa using hlarge)

namespace Extracts

variable {u} {span : Option Span} {args : List Expr} {a base : Expr} {name owner : String}
  {fields : List (String × ResolvedType)} {p : Pass Body}

lemma arity_iff (h : u.Extracts span args p) (n : ℕ) :
    p.result = .error (.extractArity n) ↔ args.length = n ∧ n ≠ 1 := by
  cases h with
  | arity h =>
    rw [Pass.fail_result, Except.error.injEq, LowerError.extractArity.injEq]
    constructor
    · rintro rfl
      exact ⟨rfl, h⟩
    · rintro ⟨hn, -⟩
      exact hn
  | _ =>
    -- a single argument
    simp only [Pass.fail_result, Except.error.injEq, reduceCtorEq, List.length_singleton, false_iff]
    omega

/-- An argument is invalid when it is no header. -/
lemma invalid_iff (h : u.Extracts span [a] p) :
    (∃ e, p.result = .error e ∧ e.kind = .invalidExtractArgument) ↔
      (u.typeOf a).isHeader = false := by
  cases h with
  | arity h => exact absurd rfl h
  | noHeader h => exact ⟨fun _ => h, fun _ => ⟨_, rfl, rfl⟩⟩
  | ignored ht => simp [ht, ResolvedType.isHeader]
  | indexed ht => simp [ht, ResolvedType.isHeader, LowerError.kind]
  | field ht => simp [ht, ResolvedType.isHeader, LowerError.kind]
  | width ht => simp [ht, ResolvedType.isHeader, LowerError.kind]
  | header ht => simp [ht, ResolvedType.isHeader]

lemma ignored_eq (h : u.Extracts span [a] p) (ht : (u.typeOf a).isHeader = true)
    (hm : a.asMember = none) :
    p.result = .ok .empty ∧ p.diagnostics = [(Diagnostic.ofKind .extractTargetIgnored
      (a.span.or span)).withDetail (ticked a.text)] := by
  cases h with
  | arity h => exact absurd rfl h
  | noHeader h => simp [h] at ht
  | ignored => exact ⟨rfl, rfl⟩
  | _ => simp_all

/-- A header that is a member is refused when what it is a member of needs an index, when it has a
field that is no bits, or when it is too wide. -/
lemma unsupported_iff (h : u.Extracts span [a] p)
    (ht : u.typeOf a = .aggregate .header owner fields) (hm : a.asMember = some (base, name)) :
    (∃ e, p.result = .error e ∧ e.kind = .unsupportedAggregateKind) ↔
      (u.typeOf base).isIndexed = true ∨ (∃ f ∈ fields, f.2.isBits = false) ∨
        2 ^ 32 ≤ ResolvedType.headerBits fields := by
  cases h with
  | arity h => exact absurd rfl h
  | noHeader h => simp [ht, ResolvedType.isHeader] at h
  | ignored _ hm' => simp [hm] at hm'
  | indexed _ hm' hi =>
    obtain ⟨rfl, rfl⟩ := Prod.mk.inj (Option.some.inj (hm.symm.trans hm'))
    exact ⟨fun _ => .inl hi, fun _ => ⟨_, rfl, rfl⟩⟩
  | @field _ _ _ _ _ f ht' _ _ hf hno =>
    obtain ⟨-, -, rfl⟩ := ResolvedType.aggregate.inj (ht.symm.trans ht')
    exact ⟨fun _ => .inr (.inl ⟨f, hf, hno⟩), fun _ => ⟨_, rfl, rfl⟩⟩
  | width ht' _ _ hw =>
    obtain ⟨-, -, rfl⟩ := ResolvedType.aggregate.inj (ht.symm.trans ht')
    exact ⟨fun _ => .inr (.inr hw), fun _ => ⟨_, rfl, rfl⟩⟩
  | @header _ _ _ _ fs _ ht' hm' hi hw =>
    obtain ⟨-, -, rfl⟩ := ResolvedType.aggregate.inj (ht.symm.trans ht')
    obtain ⟨rfl, rfl⟩ := Prod.mk.inj (Option.some.inj (hm.symm.trans hm'))
    constructor
    · rintro ⟨e, he, -⟩
      cases he
    · rintro (hi' | ⟨f, hf, hno⟩ | hw')
      · rw [hi] at hi'
        cases hi'
      · obtain ⟨g, -, rfl⟩ := List.mem_map.mp hf
        cases hno
      · rw [ResolvedType.headerBits_ofBits] at hw'
        omega

/-- A header that is a member is refused or extracted. -/
lemma unsupported_or_header (h : u.Extracts span [a] p)
    (ht : u.typeOf a = .aggregate .header owner fields) (hm : a.asMember = some (base, name)) :
    (∃ e, p.result = .error e ∧ e.kind = .unsupportedAggregateKind) ∨
      ∃ fs, fields = ResolvedType.ofBits fs ∧ BitField.total fs < 2 ^ 32 ∧
        p.result = .ok (Body.ofHeader a.text fs) ∧ p.diagnostics = [] := by
  cases h with
  | arity h => exact absurd rfl h
  | noHeader h => simp [ht, ResolvedType.isHeader] at h
  | ignored _ hm' => simp [hm] at hm'
  | @header _ _ _ _ fs _ ht' _ _ hw =>
    obtain ⟨-, -, rfl⟩ := ResolvedType.aggregate.inj (ht.symm.trans ht')
    exact .inr ⟨fs, rfl, hw, rfl, rfl⟩
  | _ => exact .inl ⟨_, rfl, rfl⟩

/-- All the reasons for which a call is refused. -/
lemma error_cases (h : u.Extracts span args p) {e : LowerError} (he : p.result = .error e) :
    e = .extractArity args.length ∨ ∃ a, args = [a] ∧
      (e = .targetType a.text (u.typeOf a) ∨ ∃ base name, a.asMember = some (base, name) ∧
        (e = .indexedTarget base.text (u.typeOf base) ∨
          (∃ field type, e = .headerField a.text field type) ∨
          e = .headerWidth a.text (u.typeOf a))) := by
  cases h with
  | arity => exact .inl (Except.error.inj he).symm
  | noHeader => exact .inr ⟨_, rfl, .inl (Except.error.inj he).symm⟩
  | ignored => cases he
  | indexed _ hm =>
    exact .inr ⟨_, rfl, .inr ⟨_, _, hm, .inl (Except.error.inj he).symm⟩⟩
  | field _ hm =>
    exact .inr ⟨_, rfl, .inr ⟨_, _, hm, .inr (.inl ⟨_, _, (Except.error.inj he).symm⟩)⟩⟩
  | width _ hm =>
    exact .inr ⟨_, rfl, .inr ⟨_, _, hm, .inr (.inr (Except.error.inj he).symm)⟩⟩
  | header => cases he

end Extracts

end ParserUnit

/-! ### Changes in place -/

/-- The section with what a statement amounts to. -/
def Section.add (s : Section) (b : Body) : Section :=
  { s with
    layouts := s.layouts ++ b.layouts
    updates := s.updates ++ b.updates
    increments := s.increments ++ b.increments }

lemma Section.add_empty (s : Section) : s.add .empty = s := by
  simp [add, Body.empty]

/-- A section that is being made, and what has been reported. -/
structure Making where
  sec : Section
  diagnostics : List Diagnostic

namespace Making

def report (m : Making) (d : Diagnostic) : Making := { m with diagnostics := m.diagnostics ++ [d] }

def add (m : Making) (b : Body) : Making := { m with sec := m.sec.add b }

lemma add_add (m : Making) (a b : Body) : (m.add a).add b = m.add (a.append b) := by
  simp [add, Section.add, Body.append]

end Making

/-- Computations that change a section in place. What was changed before a failure stays so. -/
abbrev InPlace := ExceptT LowerError (StateM Making)

namespace InPlace

variable {α β : Type}

/-- How the computation ends, and what it leaves. -/
def outcome (x : InPlace α) (m : Making) : Except LowerError α × Making := (ExceptT.run x).run m

lemma outcome_bind (x : InPlace α) (f : α → InPlace β) (m : Making) :
    outcome (x >>= f) m =
      match outcome x m with
      | (.ok a, m') => outcome (f a) m'
      | (.error e, m') => (.error e, m') := by
  unfold outcome
  rw [ExceptT.run_bind, StateT.run_bind]
  rcases hx : (ExceptT.run x).run m with ⟨r, m'⟩
  cases r <;> rfl

/-- Reports the error and fails. -/
def refuse (e : LowerError) (span : Option Span) : InPlace Unit := do
  modify fun m => m.report (e.diagnostic span)
  throw e

def layout (text : String) : InPlace Unit := modify fun m => m.add ⟨[text], [], []⟩

def update (target value : String) : InPlace Unit :=
  modify fun m => m.add ⟨[], [⟨target, value⟩], []⟩

def increment (width : UInt32) : InPlace Unit := modify fun m => m.add ⟨[], [], [width]⟩

@[simp] lemma outcome_layout (text : String) (m : Making) :
    outcome (layout text) m = (.ok (), m.add ⟨[text], [], []⟩) := rfl

@[simp] lemma outcome_update (target value : String) (m : Making) :
    outcome (update target value) m = (.ok (), m.add ⟨[], [⟨target, value⟩], []⟩) := rfl

@[simp] lemma outcome_increment (width : UInt32) (m : Making) :
    outcome (increment width) m = (.ok (), m.add ⟨[], [], [width]⟩) := rfl

/-- One update after the other. -/
lemma outcome_updates (target value : String × ResolvedType → String)
    (fields : List (String × ResolvedType)) (m : Making) :
    outcome (fields.forM fun f => update (target f) (value f)) m =
      (.ok (), m.add ⟨[], fields.map fun f => ⟨target f, value f⟩, []⟩) := by
  induction fields generalizing m with
  | nil => simp [Making.add, Section.add]; rfl
  | cons f fields ih =>
    have hstep : (f :: fields).forM (fun f => update (target f) (value f)) =
        update (target f) (value f) >>= fun _ => fields.forM fun f => update (target f) (value f) :=
      rfl
    rw [hstep, outcome_bind, outcome_update]
    simp only [ih, Making.add_add]
    rfl

/-- An extraction, one change after the other. -/
def extract (facts : Facts) : List Expr → Option Span → InPlace Unit
  | [target], span =>
    let span := target.span.or span
    if !(facts.typeOf target).isHeader then
      refuse (.targetType target.text (facts.typeOf target)) span
    else
      match target.asMember with
      | none =>
        modify fun m => m.report
          ((Diagnostic.ofKind .extractTargetIgnored span).withDetail (ticked target.text))
      | some (base, name) =>
        match findHeader facts target base name with
        | .error e => refuse e span
        | .ok x => do
          let size := extractsName ++ ".size"
          layout (facts.layout x.type true).text
          update (target.text ++ "." ++ validityName) "1"
          x.fields.forM fun f => update (target.text ++ "." ++ f.1) f.1
          update size (size ++ " + " ++ toString x.width.toNat)
          increment x.width
  | args, span => refuse (.extractArity args.length) span

end InPlace

/-- What is left of a section after a computation that adds to it when it succeeds. -/
def Pass.onto (p : Pass Body) (m : Making) : Except LowerError Unit × Making :=
  match p.result with
  | .ok body => (.ok (), ⟨m.sec.add body, m.diagnostics ++ p.diagnostics⟩)
  | .error e => (.error e, ⟨m.sec, m.diagnostics ++ p.diagnostics⟩)

namespace Pass

variable {p : Pass Body} {m : Making}

lemma onto_of_ok {body : Body} (h : p.result = .ok body) :
    p.onto m = (.ok (), ⟨m.sec.add body, m.diagnostics ++ p.diagnostics⟩) := by
  rw [onto, h]

lemma onto_error_iff {e : LowerError} : (p.onto m).1 = .error e ↔ p.result = .error e := by
  unfold onto
  cases p.result <;> simp

lemma sec_onto_of_error {e : LowerError} (h : p.result = .error e) : (p.onto m).2.sec = m.sec := by
  rw [onto, h]

end Pass

namespace InPlace

/-- What the changes of an extraction come to. -/
lemma append_changes (layout target : String) (x : Extraction) :
    ((((Body.mk [layout] [] []).append ⟨[], [⟨target ++ "." ++ validityName, "1"⟩], []⟩).append
        ⟨[], x.fields.map fun f => ⟨target ++ "." ++ f.1, f.1⟩, []⟩).append
          ⟨[], [⟨extractsName ++ ".size",
            extractsName ++ ".size" ++ " + " ++ toString x.width.toNat⟩], []⟩).append
              ⟨[], [], [x.width]⟩ =
      ⟨[layout], extractUpdates target x, [x.width]⟩ := by
  simp [Body.append, extractUpdates]

/-- Changes in place come to the same as those that are made at the end. -/
lemma outcome_extract (facts : Facts) (args : List Expr) (span : Option Span) (m : Making) :
    outcome (extract facts args span) m = (lowerExtract facts args span).onto m := by
  match args with
  | [] => rfl
  | _ :: _ :: _ => rfl
  | [target] =>
    cases hh : (facts.typeOf target).isHeader with
    | false =>
      simp only [extract, lowerExtract, hh]
      rfl
    | true =>
      cases hm : target.asMember with
      | none =>
        simp only [extract, lowerExtract, hh, hm]
        refine Eq.trans ?_ (Pass.onto_of_ok rfl).symm
        rw [Section.add_empty]
        rfl
      | some b =>
        obtain ⟨base, name⟩ := b
        simp only [extract, lowerExtract, hh, hm]
        cases hx : findHeader facts target base name with
        | error e => rfl
        | ok x =>
          simp only [Bool.not_true, Bool.false_eq_true, if_false, outcome_bind, outcome_layout,
            outcome_update, outcome_updates, outcome_increment, Making.add_add, append_changes]
          refine Eq.trans ?_ (Pass.onto_of_ok rfl).symm
          simp [Making.add, Pass.bind_def, Pass.andThen, Pass.check, Pass.value, Pass.note,
            layoutOf, Pass.pure_def]

end InPlace

/-! ### All cases -/

lemma lowerStatement_of_extract? {storage : Storage} {s : Statement} {args : List Expr}
    {span : Option Span} (h : s.extract? facts = some (args, span)) :
    lowerStatement facts storage s = lowerExtract facts args span := by
  cases s with
  | call method given place =>
    simp only [Statement.extract?] at h
    simp only [lowerStatement, lowerCall]
    cases hc : facts.call method given with
    | other => simp [hc] at h
    | method owner name passed =>
      simp only [hc] at h
      split at h
      · next he =>
        obtain ⟨rfl, rfl⟩ := Prod.mk.inj (Option.some.inj h)
        exact if_pos he
      · cases h
  | _ => cases h

/-- **What becomes of an extraction.** On any section, whether it is changed at the end or in place,
a call is refused for its number of arguments when there is not one, for its argument when that is
no header, and as unsupported when the header is a member of a stack or a union, has a field that is
no bits, or is too wide. A header that is no member is passed over with a warning, and the others
are added to the section. The checks on the field that a member names never fail, and a refused call
leaves the section as it was. -/
theorem lowerExtract_outcome (u : ParserUnit) (args : List Expr) (span : Option Span) (m : Making)
    {out : Except LowerError Unit × Making}
    (hout : (lowerExtract u.facts args span).onto m = out) :
    (∀ storage s, s.extract? u.facts = some (args, span) →
      lowerStatement u.facts storage s = lowerExtract u.facts args span) ∧
    InPlace.outcome (InPlace.extract u.facts args span) m = out ∧
    (∀ n, out.1 = .error (.extractArity n) ↔ args.length = n ∧ n ≠ 1) ∧
    (∀ a, args = [a] →
      ((∃ e, out.1 = .error e ∧ e.kind = .invalidExtractArgument) ↔
        (u.typeOf a).isHeader = false) ∧
      ∀ owner fields, u.typeOf a = .aggregate .header owner fields →
        (a.asMember = none → out = (.ok (), m.report ((Diagnostic.ofKind .extractTargetIgnored
          (a.span.or span)).withDetail (ticked a.text)))) ∧
        ∀ base name, a.asMember = some (base, name) →
          ((∃ e, out.1 = .error e ∧ e.kind = .unsupportedAggregateKind) ↔
            (u.typeOf base).isIndexed = true ∨ (∃ f ∈ fields, f.2.isBits = false) ∨
              2 ^ 32 ≤ ResolvedType.headerBits fields) ∧
          ((∃ e, out.1 = .error e ∧ e.kind = .unsupportedAggregateKind) ∨
            ∃ fs, fields = ResolvedType.ofBits fs ∧
              out = (.ok (), m.add (Body.ofHeader a.text fs)))) ∧
    ∀ e, out.1 = .error e → out.2.sec = m.sec ∧
      (e = .extractArity args.length ∨ ∃ a, args = [a] ∧
        (e = .targetType a.text (u.typeOf a) ∨ ∃ base name, a.asMember = some (base, name) ∧
          (e = .indexedTarget base.text (u.typeOf base) ∨
            (∃ field type, e = .headerField a.text field type) ∨
            e = .headerWidth a.text (u.typeOf a)))) := by
  have hx := u.extracts_lowerExtract args span
  have herror (e : LowerError) :
      out.1 = .error e ↔ (lowerExtract u.facts args span).result = .error e := by
    rw [← hout]
    exact Pass.onto_error_iff
  refine ⟨fun storage s => lowerStatement_of_extract?, ?_, fun n => ?_, ?_, fun e he => ?_⟩
  · rw [InPlace.outcome_extract, hout]
  · rw [herror, hx.arity_iff]
  · rintro a rfl
    simp only [herror]
    refine ⟨hx.invalid_iff, fun owner fields ht => ⟨fun hm => ?_, fun base name hm => ?_⟩⟩
    · have hh : (u.typeOf a).isHeader = true := ResolvedType.isHeader_iff.mpr ⟨owner, fields, ht⟩
      obtain ⟨hok, hd⟩ := hx.ignored_eq hh hm
      rw [← hout, Pass.onto_of_ok hok, hd, Section.add_empty]
      rfl
    · refine ⟨hx.unsupported_iff ht hm, ?_⟩
      rcases hx.unsupported_or_header ht hm with hrefused | ⟨fs, hfs, -, hok, hd⟩
      · exact .inl hrefused
      · refine .inr ⟨fs, hfs, ?_⟩
        rw [← hout, Pass.onto_of_ok hok, hd, List.append_nil]
        rfl
  · have hresult := (herror e).mp he
    refine ⟨?_, hx.error_cases hresult⟩
    rw [← hout]
    exact Pass.sec_onto_of_error hresult

/-- Headers that can be extracted, are too wide, or are in a stack. -/
def wideParser : ParserUnit :=
  { sampleParser with
    types := .ofList
      [("packet_in", .external),
       ("tag_t", .header [⟨"kind", .bits 8⟩, ⟨"more", .bits 4⟩]),
       ("wide_t", .header [⟨"low", .bits 4294967295⟩, ⟨"high", .bits 1⟩]),
       ("headers_t", .struct [⟨"outer", .named "tag_t"⟩, ⟨"wide", .named "wide_t"⟩,
         ⟨"tags", .stack (.named "tag_t") 2⟩])] }

/-- A section with something in it. -/
def halfMade : Making := ⟨⟨"start", 1, [], [⟨"a", "b"⟩], .goto "reject", [7]⟩, []⟩

theorem lowerExtract_outcome_wide :
    (∃ fs, [("kind", .bits 8), ("more", .bits 4)] = ResolvedType.ofBits fs ∧
      (lowerExtract wideParser.facts [.member (.path "hdr" none) "outer" none] none).onto halfMade =
        (.ok (), halfMade.add (Body.ofHeader "hdr.outer" fs))) ∧
    (∃ e, ((lowerExtract wideParser.facts [.member (.path "hdr" none) "wide" none] none).onto
      halfMade).1 = .error e ∧ e.kind = .unsupportedAggregateKind) ∧
    ∃ e, ((lowerExtract wideParser.facts
      [.member (.member (.path "hdr" none) "tags" none) "next" none] none).onto halfMade).1 =
        .error e ∧ e.kind = .unsupportedAggregateKind := by
  refine ⟨?_, ?_, ?_⟩
  · obtain ⟨-, -, -, hone, -⟩ := lowerExtract_outcome wideParser
      [.member (.path "hdr" none) "outer" none] none halfMade rfl
    obtain ⟨hiff, hcases⟩ := ((hone _ rfl).2 _ _ rfl).2 _ _ rfl
    rcases hcases with hrefused | hadded
    · exact absurd (hiff.mp hrefused) (by decide)
    · exact hadded
  · obtain ⟨-, -, -, hone, -⟩ := lowerExtract_outcome wideParser
      [.member (.path "hdr" none) "wide" none] none halfMade rfl
    exact (((hone _ rfl).2 _ _ rfl).2 _ _ rfl).1.mpr (by decide)
  · obtain ⟨-, -, -, hone, -⟩ := lowerExtract_outcome wideParser
      [.member (.member (.path "hdr" none) "tags" none) "next" none] none halfMade rfl
    exact (((hone _ rfl).2 _ _ rfl).2 _ _ rfl).1.mpr (by decide)

end PacketSections
