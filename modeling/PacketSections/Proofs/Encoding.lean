import Mathlib
import PacketSections.Proofs.Records
import PacketSections.Source.Decode

/-!
Parsers are read back from the documents that they are written as.

A span is refused when it is inverted, and nothing else that can be written is. So the condition
under which a part is read back is that its spans are ordered.
-/

namespace PacketSections

open Json Record

/-! ### The spans of a parser -/

/-- The range does not end before it starts. -/
def Span.Ordered (s : Span) : Prop := s.start ≤ s.stop

instance (s : Span) : Decidable s.Ordered := inferInstanceAs (Decidable (s.start ≤ s.stop))

/-- No range of the list ends before it starts. -/
def AllOrdered (l : List Span) : Prop := ∀ s ∈ l, s.Ordered

@[simp] lemma allOrdered_nil : AllOrdered [] := by simp [AllOrdered]

@[simp] lemma allOrdered_append {l m : List Span} :
    AllOrdered (l ++ m) ↔ AllOrdered l ∧ AllOrdered m :=
  List.forall_mem_append

@[simp] lemma allOrdered_flatMap {α : Type} {f : α → List Span} {as : List α} :
    AllOrdered (as.flatMap f) ↔ ∀ a ∈ as, AllOrdered (f a) :=
  List.forall_mem_flatMap

@[simp] lemma allOrdered_toList {o : Option Span} : AllOrdered o.toList ↔ ∀ s ∈ o, s.Ordered := by
  simp [AllOrdered]

def Expr.spans : Expr → List Span
  | path _ s => s.toList
  | member base _ s => base.spans ++ s.toList
  | index base i s => base.spans ++ i.spans ++ s.toList
  | slice base _ _ s => base.spans ++ s.toList
  | constant _ _ s => s.toList
  | bool _ s => s.toList
  | unary _ operand s => operand.spans ++ s.toList
  | binary _ lhs rhs s => lhs.spans ++ rhs.spans ++ s.toList

def LocalDecl.spans : LocalDecl → List Span
  | valueSet _ _ _ _ s => s.toList
  | var _ _ initial s => initial.toList.flatMap Expr.spans ++ s.toList
  | inst _ _ s => s.toList

def Statement.spans : Statement → List Span
  | assign left right s => left.spans ++ right.spans ++ s.toList
  | call method args s => method.spans ++ args.flatMap Expr.spans ++ s.toList
  | empty => []
  | other _ s => s.toList

def Keyset.spans : Keyset → List Span
  | value v => v.spans
  | mask v m => v.spans ++ m.spans
  | default => []

def SelectCase.spans (c : SelectCase) : List Span := c.keyset.flatMap Keyset.spans

def Transition.spans : Transition → List Span
  | direct _ => []
  | select keys cases => keys.flatMap Expr.spans ++ cases.flatMap SelectCase.spans

def State.spans (s : State) : List Span :=
  s.statements.flatMap Statement.spans ++ s.transition.toList.flatMap Transition.spans ++
    s.span.toList

/-- Every span that occurs anywhere in the parser. -/
def ParserUnit.spans (u : ParserUnit) : List Span :=
  u.params.flatMap (·.span.toList) ++ u.locals.flatMap LocalDecl.spans ++
    u.states.flatMap State.spans

/-! ### Spans -/

namespace Span

lemma check_gives (s : Span) : Gives (check s.start s.stop) s.Ordered s := by
  refine ⟨fun h => if_pos h, fun h => ⟨_, if_neg h⟩⟩

lemma record_takes {σ : Type} {R : σ → Document → Prop} {word : σ → Decoded UInt32}
    (h : ∀ w : UInt32, ReadsAs R word (.ofWord w.toUInt64) True w) (s : Span) :
    (record word).Takes R [("start", .ofWord s.start.toUInt64), ("end", .ofWord s.stop.toUInt64)]
      True (s.start, s.stop) :=
  (((Takes.of _).field (h s.start) (by simp)).field (h s.stop) (by simp)).iff (by simp)

lemma ofDocument_toDocument (s : Span) : ReadsAs Eq ofDocument s.toDocument s.Ordered s := by
  intro x hx
  have h := Document.asRecord_object "RawSpan" (record_takes Document.asWord32_word s) x hx
  exact (h.bind (check_gives s)).iff (by simp)

lemma ofDraft_toDocument (origin : Origin) (room : ℕ) (s : Span) :
    ReadsAs (Fits room) (ofDraft origin room) s.toDocument s.Ordered s := by
  intro x hx
  have h := Draft.asRecord_object origin "RawSpan"
    (fun _ => record_takes Draft.asWord32_word s) x hx
  exact (h.bind (check_gives s)).iff (by simp)

lemma toDocument_ne_null (s : Span) : s.toDocument ≠ .null := nofun

/-- A record that goes on with the place it comes from. -/
lemma field_takes {α : Type} {r : Record Document (Option Span → α)}
    {ms : List (String × Document)} {P : Prop} {g : Option Span → α} (h : r.Takes Eq ms P g)
    (s : Option Span) (hms : "span" ∉ ms.map Prod.fst) :
    (field r).Takes Eq (ms ++ memberOf s) (P ∧ ∀ t ∈ s, t.Ordered) (g s) :=
  h.option (fun t _ => Document.asOption_some (ofDocument_toDocument t) (toDocument_ne_null t)) rfl
    hms

end Span

/-! ### Types -/

namespace TypeRef

lemma taggedAs {element : Document → Decoded TypeRef} (t : TypeRef)
    (h : ∀ e size, t = stack e size → ReadsAs Eq element e.toDocument True e) :
    TaggedAs (variants element) t.toDocument True t := by
  cases t with
  | bits width =>
    exact .carrying (((Takes.of bits).field (Document.asWord32_word width) (by simp)).iff (by simp))
      rfl (by simp [tagName])
  | bool => exact .bare rfl
  | named name =>
    exact .carrying (((Takes.of named).field (Document.asString_string name) (by simp)).iff
      (by simp)) rfl (by simp [tagName])
  | stack e size =>
    exact .carrying ((((Takes.of stack).field (h e size rfl) (by simp)).field
      (Document.asWord32_word size) (by simp)).iff (by simp)) rfl (by simp [tagName])

lemma ofLevels_toDocument {n : ℕ} {t : TypeRef} (h : t.toDocument.depth < n) :
    ReadsAs Eq (ofLevels n) t.toDocument True t := by
  induction n generalizing t with
  | zero => omega
  | succ n ih =>
    refine (taggedAs t ?_).document "TypeRef"
    rintro e size rfl
    refine ih ?_
    simp only [toDocument, taggedObject, Document.depth, Document.membersDepth] at h
    omega

lemma ofDocument_toDocument (t : TypeRef) : ReadsAs Eq ofDocument t.toDocument True t := by
  rintro _ rfl
  exact ofLevels_toDocument (Nat.lt_succ_self _) _ rfl

lemma ofDraft_toDocument (room : ℕ) (t : TypeRef) :
    ReadsAs (Fits room) (ofDraft room) t.toDocument True t :=
  (taggedAs t fun e _ _ => ofDocument_toDocument e).draft "TypeRef"

end TypeRef

lemma FieldDecl.ofDocument_toDocument (f : FieldDecl) :
    ReadsAs Eq FieldDecl.ofDocument f.toDocument True f :=
  Document.asRecord_object "FieldDecl"
    ((((Takes.of FieldDecl.mk).field (Document.asString_string f.name) (by simp)).field
      (TypeRef.ofDocument_toDocument f.type) (by simp)).iff (by simp))

namespace TypeDecl

lemma taggedAs (t : TypeDecl) : TaggedAs variants t.toDocument True t := by
  have hfields (make : List FieldDecl → TypeDecl) (fs : List FieldDecl) :
      ((Record.of make).required "fields" (Document.asList FieldDecl.ofDocument)).Takes Eq
        [("fields", .array (fs.map FieldDecl.toDocument))] True (make fs) :=
    ((Takes.of make).field (Document.asList_array fun f _ => f.ofDocument_toDocument)
      (by simp)).iff (by simp)
  cases t with
  | header fs => exact .carrying (hfields header fs) rfl (by simp [tagName])
  | struct fs => exact .carrying (hfields struct fs) rfl (by simp [tagName])
  | headerUnion fs => exact .carrying (hfields headerUnion fs) rfl (by simp [tagName])
  | external => exact .bare rfl

end TypeDecl

namespace TypeTable

lemma put_new {name : String} {es : List (String × TypeDecl)} (h : name ∉ es.map Prod.fst)
    (decl : TypeDecl) : put name decl es = es ++ [(name, decl)] := by
  induction es with
  | nil => rfl
  | cons e es ih =>
    simp only [List.map_cons, List.mem_cons, not_or] at h
    rw [put, if_neg (Ne.symm h.1), ih h.2, List.cons_append]

lemma entries_foldl_insert (es : List (String × TypeDecl)) (t : TypeTable)
    (h : ((t.entries ++ es).map Prod.fst).Nodup) :
    (es.foldl (fun t e => t.insert e.1 e.2) t).entries = t.entries ++ es := by
  induction es generalizing t with
  | nil => simp
  | cons e es ih =>
    have hput : (t.insert e.1 e.2).entries = t.entries ++ [e] := by
      refine put_new ?_ e.2
      rw [List.map_append, List.nodup_append] at h
      exact fun hmem => h.2.2 _ hmem e.1 (by simp) rfl
    rw [List.foldl_cons, ih _ (by simpa [hput] using h), hput]
    simp

/-- Declaring the types of a table again, one after the other, makes the same table. -/
lemma ofList_entries (t : TypeTable) : ofList t.entries = t := by
  have heq : ∀ {t u : TypeTable}, t.entries = u.entries → t = u := by
    rintro ⟨es, _⟩ ⟨_, _⟩ rfl
    rfl
  exact heq (entries_foldl_insert t.entries empty t.nodup)

end TypeTable

/-! ### Expressions -/

namespace Expr

/-- The expressions right below. -/
def children : Expr → List Expr
  | path _ _ => []
  | member base _ _ => [base]
  | index base i _ => [base, i]
  | slice base _ _ _ => [base]
  | constant _ _ _ => []
  | bool _ _ => []
  | unary _ operand _ => [operand]
  | binary _ lhs rhs _ => [lhs, rhs]

lemma spans_eq (e : Expr) : e.spans = e.children.flatMap spans ++ e.span.toList := by
  cases e <;> simp [spans, children, span]

lemma withSpan_span (e : Expr) : (e.withSpan none).withSpan e.span = e := by
  cases e <;> rfl

/-- An expression is written as its form, which is read back, and the place that it comes from. -/
def FormAs (vs : List (Variant Expr)) (e : Expr) (P : Prop) : Prop :=
  ∃ tag ms v, e.toDocument = taggedObject tag (ms ++ Span.memberOf e.span) ∧
    (∀ k ∈ [tagName, "span"], k ∉ ms.map Prod.fst) ∧
    vs.find? (fun v => v.tag == tag) = some v ∧ Gives (v.ofMembers ms) P (e.withSpan none)

lemma FormAs.carrying {vs : List (Variant Expr)} {label : String} {r : Record Document Expr}
    {ms : List (String × Document)} {P Q : Prop} {e : Expr} (tag : String)
    (hv : vs.find? (fun v => v.tag == tag) = some (.carrying tag label r))
    (h : r.Takes Eq ms P (e.withSpan none)) (hPQ : Q ↔ P)
    (hd : e.toDocument = taggedObject tag (ms ++ Span.memberOf e.span))
    (hk : ∀ k ∈ [tagName, "span"], k ∉ ms.map Prod.fst) : FormAs vs e Q :=
  ⟨tag, ms, _, hd, hk, hv, (h.ofMembers (stand_self ms) _).iff hPQ⟩

lemma pick_unary (op : UnaryOp) : ReadsAs Eq (Document.asChoice UnaryOp.table) (.string op.text)
    True op := by
  rintro _ rfl
  cases op <;> exact .pure _

lemma pick_binary (op : BinaryOp) : ReadsAs Eq (Document.asChoice BinaryOp.table) (.string op.text)
    True op := by
  rintro _ rfl
  cases op <;> exact .pure _

lemma formAs {inner : Document → Decoded Expr} {P : Expr → Prop} (e : Expr)
    (h : ∀ c ∈ e.children, ReadsAs Eq inner c.toDocument (P c) c) :
    FormAs (variants inner) e (∀ c ∈ e.children, P c) := by
  cases e with
  | path name s =>
    exact .carrying "path" rfl ((Takes.of _).field (Document.asString_string name) (by simp))
      (by simp [children]) rfl (by simp [tagName])
  | member base name s =>
    exact .carrying "member" rfl (((Takes.of _).field (h base (by simp [children])) (by simp)).field
      (Document.asString_string name) (by simp)) (by simp [children]) rfl (by simp [tagName])
  | index base i s =>
    exact .carrying "index" rfl (((Takes.of _).field (h base (by simp [children])) (by simp)).field
      (h i (by simp [children])) (by simp)) (by simp [children]) rfl (by simp [tagName])
  | slice base hi lo s =>
    exact .carrying "slice" rfl ((((Takes.of _).field (h base (by simp [children])) (by simp)).field
      (Document.asWord32_word hi) (by simp)).field (Document.asWord32_word lo) (by simp))
      (by simp [children]) rfl (by simp [tagName])
  | constant value width s =>
    have hwidth (w : UInt32) (_ : w ∈ width) :=
      Document.asOption_some (Document.asWord32_word w) (by simp [Document.ofWord])
    exact .carrying "constant" rfl (((Takes.of _).field (Document.asWord64_word value)
      (by simp)).option hwidth rfl (by simp)) (by simp [children]) rfl (by simp [tagName])
  | bool value s =>
    exact .carrying "bool" rfl ((Takes.of _).field (Document.asBool_bool value) (by simp))
      (by simp [children]) rfl (by simp [tagName])
  | unary op operand s =>
    exact .carrying "unary" rfl (((Takes.of _).field (pick_unary op) (by simp)).field
      (h operand (by simp [children])) (by simp)) (by simp [children]) rfl (by simp [tagName])
  | binary op lhs rhs s =>
    exact .carrying "binary" rfl ((((Takes.of _).field (pick_binary op) (by simp)).field
      (h lhs (by simp [children])) (by simp)).field (h rhs (by simp [children])) (by simp))
      (by simp [children]) rfl (by simp [tagName])

section splitSpan

variable {σ : Type} {R : σ → Document → Prop} {span : σ → Decoded (Option Span)}
  {rest : σ → Decoded Document}

/-- The place that an expression comes from is its last member, where there is one. -/
lemma splitSpan_memberOf (hspan : ∀ s : Span, ReadsAs R span s.toDocument s.Ordered (some s))
    (hrest : ∀ x d, R x d → rest x = .ok d) (s : Option Span) {ms : List (String × Document)}
    (hms : "span" ∉ ms.map Prod.fst) {xs : List (String × σ)}
    (hxs : Stand R xs (ms ++ Span.memberOf s)) :
    Gives (splitSpan span rest none (keyed xs)) (∀ t ∈ s, t.Ordered) (s.map some, ms) := by
  induction ms generalizing xs with
  | nil =>
    cases s with
    | none =>
      cases hxs
      exact (Gives.pure _).iff (by simp)
    | some t =>
      obtain _ | ⟨⟨hk, hx⟩, ⟨⟩⟩ := hxs
      rename_i x
      obtain ⟨k, x⟩ := x
      cases hk
      exact ((hspan t x hx).bind (Gives.pure (some (some t), []))).iff (by simp)
  | cons m ms ih =>
    simp only [List.map_cons, List.mem_cons, not_or] at hms
    obtain _ | ⟨⟨hk, hx⟩, hxs⟩ := hxs
    rename_i x xs
    obtain ⟨k, x⟩ := x
    obtain rfl : k = m.1 := hk
    refine .congr ?_ ((ih hms.2 hxs).map fun p => (p.1, m :: p.2))
    simp only [keyed, List.map_cons, splitSpan, Ne.symm hms.1, if_false, hrest x m.2 hx, bind,
      Except.bind]
    cases splitSpan span rest none (xs.map fun x => (.ok x.1, x.2)) <;> rfl

end splitSpan

lemma depth_children {e c : Expr} (h : c ∈ e.children) :
    c.toDocument.depth < e.toDocument.depth := by
  cases e <;> simp only [children, List.mem_cons, List.not_mem_nil, or_false] at h
  case index | binary =>
    rcases h with rfl | rfl <;>
      simp only [toDocument, taggedObject, Document.depth, Document.membersDepth] <;> omega
  all_goals
    subst h
    simp only [toDocument, taggedObject, Document.depth, Document.membersDepth]
    omega

lemma allOrdered_spans (e : Expr) :
    AllOrdered e.spans ↔ (∀ t ∈ e.span, t.Ordered) ∧ ∀ c ∈ e.children, AllOrdered c.spans := by
  rw [spans_eq, allOrdered_append, allOrdered_flatMap, allOrdered_toList, and_comm]

/-- Once the place has been taken out, the form is read and put back in its place. -/
lemma withSpan_gives {vs : List (Variant Expr)} {tag : String} {ms : List (String × Document)}
    {v : Variant Expr} {P : Prop} {e : Expr} (hk : tagName ∉ ms.map Prod.fst)
    (hv : vs.find? (fun v => v.tag == tag) = some v)
    (h : Gives (v.ofMembers ms) P (e.withSpan none)) :
    Gives (do
      let c ← Document.ofTagged vs (("kind", .string tag) :: ms)
      return c.withSpan ((e.span.map some).getD none)) P e := by
  have hs : (e.span.map some).getD none = e.span := by cases e.span <;> rfl
  have hform := (Document.ofTagged_tagged hk hv h).map (withSpan e.span)
  rw [withSpan_span] at hform
  refine .congr ?_ hform
  rw [hs]
  cases Document.ofTagged vs (("kind", .string tag) :: ms) <;> rfl

lemma ofLevels_toDocument {n : ℕ} {e : Expr} (h : e.toDocument.depth < n) :
    ReadsAs Eq (ofLevels n) e.toDocument (AllOrdered e.spans) e := by
  induction n generalizing e with
  | zero => omega
  | succ n ih =>
    -- the expressions right below have fewer levels
    obtain ⟨tag, ms, v, hd, hk, hv, hform⟩ := formAs e fun c hc =>
      ih (e := c) (by have := depth_children hc; omega)
    rintro _ rfl
    have hspan := splitSpan_memberOf
      (fun s => Document.asOption_some (Span.ofDocument_toDocument s) s.toDocument_ne_null)
      (fun _ _ => congrArg Except.ok) e.span (by simpa using hk "span" (by simp))
      (stand_self (("kind", .string tag) :: ms ++ Span.memberOf e.span))
    rw [hd, allOrdered_spans]
    exact hspan.bind (withSpan_gives (hk tagName (by simp)) hv hform)

lemma ofDocument_toDocument (e : Expr) :
    ReadsAs Eq ofDocument e.toDocument (AllOrdered e.spans) e := by
  rintro _ rfl
  exact ofLevels_toDocument (Nat.lt_succ_self _) _ rfl

lemma toDocument_ne_null (e : Expr) : e.toDocument ≠ .null := by
  cases e <;> nofun

end Expr

/-! ### Declarations and states -/

section

variable {α : Type} {decode : Document → Decoded α} {encode : α → Document} {f : α → List Span}

/-- A list is read back if the spans of its items are ordered. -/
lemma asList_spans (h : ∀ a, ReadsAs Eq decode (encode a) (AllOrdered (f a)) a) (as : List α) :
    ReadsAs Eq (Document.asList decode) (.array (as.map encode)) (AllOrdered (as.flatMap f))
      as :=
  (Document.asList_array fun a _ => h a).iff allOrdered_flatMap

lemma asList_draft_spans {decode : ℕ → Draft → Decoded α} {room : ℕ}
    (h : ∀ room a, ReadsAs (Fits room) (decode room) (encode a) (AllOrdered (f a)) a)
    (as : List α) :
    ReadsAs (Fits room) (Draft.asList room decode) (.array (as.map encode))
      (AllOrdered (as.flatMap f)) as :=
  (Draft.asList_array fun room a _ => h room a).iff allOrdered_flatMap

end

lemma Direction.ofDraft_label (origin : Origin) (room : ℕ) (d : Direction) :
    ReadsAs (Fits room) (Draft.asChoice origin room table) (.string d.label) True d := by
  rintro _ ⟨⟨⟩, -⟩
  cases origin <;> cases d <;> exact .pure _

lemma Param.ofDraft_toDocument (origin : Origin) (room : ℕ) (p : Param) :
    ReadsAs (Fits room) (ofDraft origin room) p.toDocument (AllOrdered p.span.toList) p :=
  Draft.asRecord_object origin "Param" fun room =>
    (((((Takes.of Param.mk).field (Draft.asString_string p.name) (by simp)).field
      (Direction.ofDraft_label origin room p.direction) (by simp)).field
      (TypeRef.ofDraft_toDocument room p.type) (by simp)).option
      (fun s _ => Draft.asOption_some (s.ofDraft_toDocument origin room) s.toDocument_ne_null) rfl
      (by simp)).iff (by simp)

lemma LocalDecl.taggedAs (d : LocalDecl) :
    TaggedAs variants d.toDocument (AllOrdered d.spans) d := by
  cases d with
  | valueSet name element size exported s =>
    have hexported (x : String) (_ : x ∈ exported) :=
      Document.asOption_some (Document.asString_string x) (by simp)
    exact .carrying ((Span.field_takes (((((Takes.of valueSet).field
      (Document.asString_string name) (by simp)).field (TypeRef.ofDocument_toDocument element)
      (by simp)).field (Document.asWord32_word size) (by simp)).option hexported rfl (by simp)) s
      (by simp)).iff (by simp [spans])) rfl (by simp [tagName, Span.memberOf])
  | var name type initial s =>
    have hinitial (e : Expr) (_ : e ∈ initial) :=
      Document.asOption_some e.ofDocument_toDocument e.toDocument_ne_null
    exact .carrying ((Span.field_takes ((((Takes.of var).field
      (Document.asString_string name) (by simp)).field (TypeRef.ofDocument_toDocument type)
      (by simp)).option hinitial rfl (by simp)) s (by simp)).iff (by simp [spans])) rfl
      (by simp [tagName, Span.memberOf])
  | inst name type s =>
    exact .carrying ((Span.field_takes (((Takes.of inst).field
      (Document.asString_string name) (by simp)).field (TypeRef.ofDocument_toDocument type)
      (by simp)) s (by simp)).iff (by simp [spans])) rfl (by simp [tagName, Span.memberOf])

lemma Statement.taggedAs (s : Statement) :
    TaggedAs variants s.toDocument (AllOrdered s.spans) s := by
  cases s with
  | assign left right s =>
    exact .carrying ((Span.field_takes (((Takes.of assign).field left.ofDocument_toDocument
      (by simp)).field right.ofDocument_toDocument (by simp)) s (by simp)).iff
      (by simp [spans, and_assoc])) rfl
      (by simp [tagName, Span.memberOf])
  | call method args s =>
    exact .carrying ((Span.field_takes (((Takes.of call).field method.ofDocument_toDocument
      (by simp)).field (asList_spans Expr.ofDocument_toDocument args) (by simp)) s (by simp)).iff
      (by simp [spans, and_assoc])) rfl (by simp [tagName, Span.memberOf])
  | empty => exact (TaggedAs.bare rfl).iff (by simp [spans])
  | other text s =>
    exact .carrying ((Span.field_takes ((Takes.of other).field (Document.asString_string text)
      (by simp)) s (by simp)).iff (by simp [spans])) rfl (by simp [tagName, Span.memberOf])

lemma Keyset.taggedAs (k : Keyset) : TaggedAs variants k.toDocument (AllOrdered k.spans) k := by
  cases k with
  | value v =>
    exact .carrying (((Takes.of value).field v.ofDocument_toDocument (by simp)).iff
      (by simp [spans])) rfl (by simp [tagName])
  | mask v m =>
    exact .carrying ((((Takes.of mask).field v.ofDocument_toDocument (by simp)).field
      m.ofDocument_toDocument (by simp)).iff (by simp [spans])) rfl (by simp [tagName])
  | default => exact (TaggedAs.bare rfl).iff (by simp [spans])

lemma SelectCase.ofDocument_toDocument (c : SelectCase) :
    ReadsAs Eq SelectCase.ofDocument c.toDocument (AllOrdered c.spans) c :=
  Document.asRecord_object "SelectCase"
    ((((Takes.of SelectCase.mk).field
      (asList_spans (fun k => k.taggedAs.document "Keyset") c.keyset) (by simp)).field
      (Document.asString_string c.target) (by simp)).iff (by simp [spans]))

lemma Transition.taggedAs (t : Transition) :
    TaggedAs variants t.toDocument (AllOrdered t.spans) t := by
  cases t with
  | direct target =>
    exact .carrying (((Takes.of direct).field (Document.asString_string target) (by simp)).iff
      (by simp [spans])) rfl (by simp [tagName])
  | select keys cases =>
    exact .carrying ((((Takes.of select).field (asList_spans Expr.ofDocument_toDocument keys)
      (by simp)).field (asList_spans SelectCase.ofDocument_toDocument cases) (by simp)).iff
      (by simp [spans])) rfl (by simp [tagName])

lemma Transition.toDocument_ne_null (t : Transition) : t.toDocument ≠ .null := by
  cases t <;> nofun

lemma State.ofDraft_toDocument (origin : Origin) (room : ℕ) (s : State) :
    ReadsAs (Fits room) (ofDraft origin room) s.toDocument (AllOrdered s.spans) s :=
  Draft.asRecord_object origin "ParserState" fun room =>
    (((((Takes.of State.mk).field (Draft.asString_string s.name) (by simp)).field
      (asList_draft_spans (fun _ t => t.taggedAs.draft "Statement") s.statements) (by simp)).option
      (fun t _ => Draft.asOption_some (t.taggedAs.draft "Transition") t.toDocument_ne_null) rfl
      (by simp)).option
      (fun t _ => Draft.asOption_some (t.ofDraft_toDocument origin room) t.toDocument_ne_null) rfl
      (by simp)).iff (by simp [spans, and_assoc])

lemma TypeTable.ofDraft_toDocument (room : ℕ) (t : TypeTable) :
    ReadsAs (Fits room) (ofDraft room) (.object (t.entries.map fun e => (e.1, e.2.toDocument)))
      True t := by
  intro x hx
  have hitem (room : ℕ) (e : String × TypeDecl) (_ : e ∈ t.entries) :
      ReadsAs (Fits room) (TypeDecl.ofDraft room) e.2.toDocument True e.2 :=
    e.2.taggedAs.draft "TypeDecl"
  have h := Draft.asEntries_object (P := fun _ => True) hitem x hx
  have hmap := (h.map ofList).iff (Q := True) (by simp)
  rwa [ofList_entries] at hmap

/-- A parser is read back from the document that it is written as, if its spans are ordered, and
refused otherwise. -/
theorem ParserUnit.ofDraft_toDocument (origin : Origin) (room : ℕ) (u : ParserUnit) :
    ReadsAs (Fits room) (ofDraft origin room) u.toDocument (AllOrdered u.spans) u :=
  Draft.asRecord_object origin "ParserUnit" fun room =>
    ((((((Takes.of ParserUnit.mk).field (Draft.asString_string u.name) (by simp)).field
      (TypeTable.ofDraft_toDocument room u.types) (by simp)).field
      (asList_draft_spans (Param.ofDraft_toDocument origin) u.params) (by simp)).field
      (asList_draft_spans (fun _ d => d.taggedAs.draft "LocalDecl") u.locals) (by simp)).field
      (asList_draft_spans (State.ofDraft_toDocument origin) u.states) (by simp)).iff
      (by simp [spans, and_assoc])

end PacketSections
