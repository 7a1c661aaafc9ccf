import Mathlib
import PacketSections.Proofs.HeaderStorage

/-!
What lies on the way to a header that is extracted.

A member of a stack or of a union is refused, but only what the header itself is a member of is
looked at. An element of a stack may be a structure, and then a member of this element is accepted
although the way to it leads through the stack. It takes a structure or a header with a header in it
inside of the stack for this to happen: where declared types have none, no header is extracted by
way of a stack or a union.
-/

namespace PacketSections

open Lowering

variable {u : ParserUnit}

namespace Expr

/-- What an expression is a part of, directly or not: the bases of members, elements and slices. -/
def holders : Expr → List Expr
  | member base _ _ => base :: base.holders
  | index base _ _ => base :: base.holders
  | slice base _ _ _ => base :: base.holders
  | _ => []

end Expr

/-! ### Headers inside of types -/

namespace ResolvedType

mutual

/-- Whether a structure or a header in the type has a header as a field. -/
def nests : ResolvedType → Bool
  | aggregate kind _ fields =>
    (kind != .headerUnion && fields.any fun f => f.2.isHeader) || anyNests fields
  | stack element _ => element.nests
  | _ => false

def anyNests : List (String × ResolvedType) → Bool
  | [] => false
  | (_, t) :: fields => t.nests || anyNests fields

end

mutual

/-- Whether this is so of no stack and no union in the type. -/
def shallow : ResolvedType → Bool
  | aggregate .headerUnion _ fields => !anyNests fields
  | aggregate _ _ fields => allShallow fields
  | stack element _ => !element.nests
  | _ => true

def allShallow : List (String × ResolvedType) → Bool
  | [] => true
  | (_, t) :: fields => t.shallow && allShallow fields

end

lemma anyNests_eq (fields : List (String × ResolvedType)) :
    anyNests fields = fields.any fun f => f.2.nests := by
  induction fields with
  | nil => rfl
  | cons f fields ih => rw [anyNests, ih, List.any_cons]

lemma allShallow_eq (fields : List (String × ResolvedType)) :
    allShallow fields = fields.all fun f => f.2.shallow := by
  induction fields with
  | nil => rfl
  | cons f fields ih => rw [allShallow, ih, List.all_cons]

lemma mem_of_field? {fields : List (String × ResolvedType)} {name : String} {t : ResolvedType}
    (h : field? fields name = some t) : (name, t) ∈ fields := by
  obtain ⟨before, after, rfl, -⟩ := List.lookup_eq_some_iff.mp h
  simp

/-! ### Parts of types -/

/-- A property that passes from a type to its fields and elements, and holds of what has none. -/
structure Hereditary (P : ResolvedType → Prop) : Prop where
  field {kind : AggregateKind} {owner : String} {fields : List (String × ResolvedType)}
    {f : String × ResolvedType} : P (aggregate kind owner fields) → f ∈ fields → P f.2
  element {t : ResolvedType} {size : UInt32} : P (stack t size) → P t
  bits (w : UInt32) : P (bits w)
  unknown (what : String) : P (unknown what)

namespace Hereditary

variable {P : ResolvedType → Prop} {t : ResolvedType}

lemma memberType (hP : Hereditary P) (h : P t) (name : String) : P (t.memberType name) := by
  cases t with
  | aggregate kind owner fields =>
    rw [ResolvedType.memberType]
    cases hf : field? fields name with
    | none => exact hP.unknown _
    | some t => exact hP.field h (mem_of_field? hf)
  | stack element size =>
    rw [ResolvedType.memberType]
    split
    · exact hP.element h
    · split
      · exact hP.bits _
      · exact hP.unknown _
  | _ => exact hP.unknown _

lemma elementType (hP : Hereditary P) (h : P t) : P t.elementType := by
  cases t with
  | stack element size => exact hP.element h
  | bits w => exact hP.bits 1
  | _ => exact hP.unknown _

end Hereditary

variable {t : ResolvedType} {name : String}

lemma nests_hereditary : Hereditary fun t => t.nests = false where
  field := by
    intro kind owner fields f h hf
    rw [nests, Bool.or_eq_false_iff, anyNests_eq, List.any_eq_false] at h
    simpa using h.2 f hf
  element h := by rwa [nests] at h
  bits _ := rfl
  unknown _ := rfl

/-- A stack or a union that is shallow nests no header. -/
lemma nests_of_shallow (h : t.shallow = true) (hi : t.isIndexed = true) : t.nests = false := by
  cases t with
  | stack element size => simpa [shallow, nests] using h
  | aggregate kind owner fields =>
    cases kind with
    | headerUnion => simpa [shallow, nests] using h
    | _ => cases hi
  | _ => cases hi

mutual

/-- What nests no header does not do so in a stack or a union. -/
lemma shallow_of_nests : {t : ResolvedType} → t.nests = false → t.shallow = true
  | aggregate .headerUnion _ fields, h => by simpa [nests, shallow] using h
  | aggregate .struct _ fields, h => by
    rw [nests, Bool.or_eq_false_iff] at h
    exact allShallow_of_anyNests h.2
  | aggregate .header _ fields, h => by
    rw [nests, Bool.or_eq_false_iff] at h
    exact allShallow_of_anyNests h.2
  | stack element _, h => by simpa [nests, shallow] using h
  | packetSource, _ => rfl
  | external _, _ => rfl
  | bits _, _ => rfl
  | bool, _ => rfl
  | unknown _, _ => rfl

lemma allShallow_of_anyNests : {fields : List (String × ResolvedType)} →
    anyNests fields = false → allShallow fields = true
  | [], _ => rfl
  | (_, t) :: fields, h => by
    rw [anyNests, Bool.or_eq_false_iff] at h
    rw [allShallow, shallow_of_nests h.1, allShallow_of_anyNests h.2, Bool.and_self]

end

lemma shallow_hereditary : Hereditary fun t => t.shallow = true where
  field := by
    intro kind owner fields f h hf
    cases kind with
    | headerUnion => exact shallow_of_nests (nests_hereditary.field (nests_of_shallow h rfl) hf)
    | _ =>
      have hall : allShallow fields = true := h
      rw [allShallow_eq, List.all_eq_true] at hall
      exact hall f hf
  element h := shallow_of_nests (nests_hereditary.element (nests_of_shallow h rfl))
  bits _ := rfl
  unknown _ := rfl

/-- A structure or a header that has a header as a member nests it. -/
lemma nests_of_isHeader (hi : t.isIndexed = false) (hm : (t.memberType name).isHeader = true) :
    t.nests = true := by
  cases t with
  | aggregate kind owner fields =>
    have hkind : kind ≠ .headerUnion := by
      rintro rfl
      cases hi
    cases hf : field? fields name with
    | none => simp [memberType, hf, isHeader] at hm
    | some t =>
      have ht : t.isHeader = true := by simpa [memberType, hf] using hm
      rw [nests, Bool.or_eq_true, Bool.and_eq_true, List.any_eq_true]
      exact .inl ⟨by simpa using hkind, _, mem_of_field? hf, ht⟩
  | stack => cases hi
  | _ => cases hm

end ResolvedType

/-! ### Expressions -/

open ResolvedType

/-- Every declared name has a type whose stacks and unions nest no header. -/
def ParserUnit.Shallow (u : ParserUnit) : Prop :=
  ∀ q ∈ u.scope, (u.types.resolve q.2).shallow = true

instance : Decidable u.Shallow := inferInstanceAs (Decidable (∀ q ∈ u.scope, _))

lemma Expr.typeIn_slice {P : ResolvedType → Prop} (hP : Hereditary P)
    (scope : String → Option ResolvedType) (base : Expr) (hi lo : UInt32) (span : Option Span) :
    P ((slice base hi lo span).typeIn scope) := by
  rw [typeIn]
  split
  · exact hP.bits _
  · exact hP.unknown _

/-- Then so has every expression. -/
lemma shallow_typeOf (hu : u.Shallow) (e : Expr) : (u.typeOf e).shallow = true := by
  induction e with
  | path name span =>
    change ((u.nameType? name).getD (.unknown name)).shallow = true
    cases hn : u.nameType? name with
    | none => rfl
    | some t =>
      obtain ⟨type, hlookup, rfl⟩ := Option.map_eq_some_iff.mp hn
      obtain ⟨before, after, hsplit, -⟩ := List.lookup_eq_some_iff.mp hlookup
      have hmem : (name, type) ∈ u.scope := by
        rw [← List.mem_reverse, hsplit]
        simp
      exact hu _ hmem
  | member base name span ih => exact shallow_hereditary.memberType ih name
  | index base i span ih => exact shallow_hereditary.elementType ih
  | slice base hi lo span => exact Expr.typeIn_slice shallow_hereditary _ base hi lo span
  | constant value width span => cases width <;> rfl
  | bool value span => rfl
  | unary op operand span ih => exact ih
  | binary op lhs rhs span ih =>
    change (if op.isTruth then ResolvedType.bool else u.typeOf lhs).shallow = true
    split
    · rfl
    · exact ih

/-- What is reached through a stack or a union nests no header. -/
lemma nests_of_indexed_holder (hu : u.Shallow) {e b : Expr} (hb : b ∈ e :: e.holders)
    (hi : (u.typeOf b).isIndexed = true) : (u.typeOf e).nests = false := by
  induction e with
  | member base name span ih =>
    rcases List.mem_cons.mp hb with rfl | hb
    · exact nests_of_shallow (shallow_typeOf hu _) hi
    · exact nests_hereditary.memberType (ih hb) name
  | index base i span ih =>
    rcases List.mem_cons.mp hb with rfl | hb
    · exact nests_of_shallow (shallow_typeOf hu _) hi
    · exact nests_hereditary.elementType (ih hb)
  | slice base hi lo span => exact Expr.typeIn_slice nests_hereditary _ base hi lo span
  | _ =>
    -- the expression is no part of anything
    obtain rfl : b = _ := by simpa [Expr.holders] using hb
    exact nests_of_shallow (shallow_typeOf hu _) hi

/-! ### Extractions -/

lemma lowerStatements_mem {facts : Facts} {storage : Storage} {ss : List Statement} {body : Body}
    (h : (lowerStatements facts storage ss).result = .ok body) {stmt : Statement}
    (hstmt : stmt ∈ ss) : ∃ part, (lowerStatement facts storage stmt).result = .ok part := by
  induction ss generalizing body with
  | nil => cases hstmt
  | cons s ss ih =>
    simp only [lowerStatements, Pass.bind_ok_iff, Pass.pure_result, Except.ok.injEq] at h
    obtain ⟨head, hs, rest, hss, -⟩ := h
    rcases List.mem_cons.mp hstmt with rfl | hstmt
    · exact ⟨head, hs⟩
    · exact ih hss hstmt

/-- What a header that is extracted is a member of is no stack and no union. -/
lemma holder_of_target? {storage : Storage} {stmt : Statement} {a : Expr} {part : Body}
    {fields : List (String × ResolvedType)}
    (h : (lowerStatement u.facts storage stmt).result = .ok part)
    (ha : stmt.target? u = some (a, fields)) :
    ∃ base name, a.asMember = some (base, name) ∧ (u.typeOf base).isIndexed = false := by
  obtain ⟨hm, owner, ht⟩ := Statement.target?_eq_some ha
  obtain ⟨⟨base, name⟩, hm⟩ := Option.isSome_iff_exists.mp hm
  obtain ⟨span, hx⟩ : ∃ span, stmt.extract? u.facts = some ([a], span) := by
    unfold Statement.target? at ha
    split at ha
    · next a' span hx =>
      split at ha
      · obtain ⟨rfl, -⟩ := Prod.mk.inj (Option.some.inj ha)
        exact ⟨span, hx⟩
      · cases ha
    · cases ha
  rw [lowerStatement_of_extract? hx] at h
  refine ⟨base, name, hm, ?_⟩
  have hrefused := ((u.extracts_lowerExtract [a] span).unsupported_iff ht hm).mpr
  cases hi : (u.typeOf base).isIndexed with
  | false => rfl
  | true =>
    obtain ⟨e, he, -⟩ := hrefused (.inl hi)
    rw [he] at h
    cases h

/-- **On the way to an extracted header.** What the header is a member of is no stack and no union.
Where the stacks and unions of all declared types nest no header, this goes for everything on the
way to it, down to the root. -/
theorem lower_extract_holders {u : ParserUnit} {p : Program} (h : u.lower.result = .ok p) {i : ℕ}
    {s : State} (hs : u.states[i]? = some s) (hgoes : s.isTerminal = false) {stmt : Statement}
    (hstmt : stmt ∈ s.statements) {a : Expr} {fields : List (String × ResolvedType)}
    (ha : stmt.target? u = some (a, fields)) :
    (∃ base name, a.asMember = some (base, name) ∧ (u.typeOf base).isIndexed = false) ∧
    (u.Shallow → ∀ b ∈ a.holders, (u.typeOf b).isIndexed = false) := by
  obtain ⟨sec, -, body, hbody, -⟩ := lower_fills h hs hgoes
  obtain ⟨part, hpart⟩ := lowerStatements_mem hbody hstmt
  obtain ⟨base, name, hm, hbase⟩ := holder_of_target? hpart ha
  refine ⟨⟨base, name, hm, hbase⟩, fun hu b hb => ?_⟩
  obtain ⟨-, owner, ht⟩ := Statement.target?_eq_some ha
  have hheader : ((u.typeOf base).memberType name).isHeader = true := by
    rw [← u.typeOf_of_asMember hm, ht]
    rfl
  have hnests : (u.typeOf base).nests = true := nests_of_isHeader hbase hheader
  have hchain : b ∈ base :: base.holders := by
    cases a with
    | member base' name' span =>
      obtain ⟨rfl, rfl⟩ := Prod.mk.inj (Option.some.inj hm)
      exact hb
    | _ => cases hm
  cases hi : (u.typeOf b).isIndexed with
  | false => rfl
  | true =>
    rw [nests_of_indexed_holder hu hchain hi] at hnests
    cases hnests

/-- Tags in a structure, in a stack, and in a union. -/
def stackedParser : ParserUnit :=
  { sampleParser with
    types := .ofList
      [("packet_in", .external),
       ("tag_t", .header [⟨"kind", .bits 8⟩, ⟨"more", .bits 4⟩]),
       ("either_t", .headerUnion [⟨"tag", .named "tag_t"⟩]),
       ("link_t", .struct [⟨"first", .named "tag_t"⟩]),
       ("headers_t", .struct [⟨"link", .named "link_t"⟩, ⟨"tags", .stack (.named "tag_t") 2⟩,
         ⟨"either", .named "either_t"⟩])]
    states := [⟨"start", [nestedExtract "first"], none, none⟩, .bare "accept", .bare "reject"] }

theorem lower_extract_holders_stacked :
    ∃ p, stackedParser.lower.result = .ok p ∧
      (nestedHeader "first").holders = [.member (.path "hdr" none) "link" none, .path "hdr" none] ∧
      ∀ b ∈ (nestedHeader "first").holders, (stackedParser.typeOf b).isIndexed = false := by
  obtain ⟨p, hp⟩ : ∃ p, stackedParser.lower.result = .ok p := ⟨_, rfl⟩
  have htarget : (nestedExtract "first").target? stackedParser =
      some (nestedHeader "first", [("kind", .bits 8), ("more", .bits 4)]) := rfl
  obtain ⟨-, hholders⟩ := lower_extract_holders hp (i := 0) rfl (by decide)
    (List.mem_singleton_self _) htarget
  exact ⟨p, hp, rfl, hholders (by decide)⟩

/-- A tag in an element of a stack. -/
def slotTag (i : Expr) : Expr :=
  .member (.index (.member (.path "hdr" none) "slots" none) i none) "tag" none

def slotExtract (i : Expr) : Statement :=
  .call (.member (.path "packet" none) "extract" none) [slotTag i] none

/-- The tag is extracted, and then its kind is set. -/
def slotParser (i : Expr) : ParserUnit :=
  { sampleParser with
    types := .ofList
      [("packet_in", .external),
       ("tag_t", .header [⟨"kind", .bits 8⟩, ⟨"more", .bits 4⟩]),
       ("slot_t", .struct [⟨"tag", .named "tag_t"⟩]),
       ("headers_t", .struct [⟨"slots", .stack (.named "slot_t") 2⟩])]
    states :=
      [⟨"start",
        [slotExtract i, .assign (.member (slotTag i) "kind" none) (.constant 3 none none) none],
        some (.direct "accept"), none⟩,
       .bare "accept", .bare "reject"] }

/-- The elements of the stack are structures, and a header is extracted into one of them. -/
theorem lower_extract_through_stack :
    ∃ p sec fields, (slotParser (.constant 1 none none)).lower.result = .ok p ∧
      p.sections[0]? = some sec ∧
      (slotExtract (.constant 1 none none)).target? (slotParser (.constant 1 none none)) =
        some (slotTag (.constant 1 none none), fields) ∧
      ⟨"hdr.slots[1].tag.isValid", "1"⟩ ∈ sec.updates ∧
      ∃ b ∈ (slotTag (.constant 1 none none)).holders,
        ((slotParser (.constant 1 none none)).typeOf b).isIndexed = true :=
  ⟨_, _, _, rfl, rfl, rfl, by decide, .member (.path "hdr" none) "slots" none, by decide, rfl⟩

end PacketSections
