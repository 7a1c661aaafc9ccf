import Mathlib
import PacketSections.Proofs.Decoding

/-!
Writing a parser and reading it again.

What has been written is read back, as long as no span is inverted. Of what is read from any text,
the spans are ordered and the written form has no more levels than a text may have, so it can be
read again: nothing is lost by writing down what has been accepted.
-/

namespace PacketSections

open Json Record Document

/-! ### What is read from documents -/

section

variable {k : ℕ}

@[simp] lemma within_string (s : String) : (string s).Within k := Nat.zero_le k

@[simp] lemma within_ofWord (w : UInt64) : (ofWord w).Within k := Nat.zero_le k

@[simp] lemma within_bool (b : Bool) : (Document.bool b).Within k := Nat.zero_le k

@[simp] lemma within_object_succ {ms : List (String × Document)} :
    (object ms).Within (k + 1) ↔ ∀ m ∈ ms, m.2.Within k := by
  simp [within_object]

@[simp] lemma within_taggedObject {tag : String} {ms : List (String × Document)} :
    (taggedObject tag ms).Within (k + 1) ↔ ∀ m ∈ ms, m.2.Within k := by
  simp [taggedObject]

lemma kept_iff {α : Type} {encode : α → Document} {f : α → List Span} {a : α} :
    Kept encode f k a ↔ (encode a).Within k ∧ AllOrdered (f a) :=
  ⟨fun h => ⟨h.within, h.ordered⟩, fun h => ⟨h.1, h.2⟩⟩

/-- A list that has been left out takes one level when it is written. -/
lemma kept_nil {α : Type} {encode : α → Document} {f : α → List Span} (h : 0 < k) :
    Kept (fun as => .array (as.map encode)) (fun as => as.flatMap f) k [] := by
  simpa [kept_iff, within_array] using h

@[simp] lemma allOrdered_singleton {s : Span} : AllOrdered [s] ↔ s.Ordered := by
  simp [AllOrdered]

end

namespace Span

variable {k room : ℕ}

lemma kept_of_check {start stop : UInt32} {s : Span} (h : check start stop = .ok s) :
    Kept toDocument (fun s => [s]) (k + 1) s := by
  unfold check at h
  split at h
  · next hle => cases h; simp [kept_iff, toDocument, Ordered, hle]
  · cases h

/-- Wherever a span has been read from, there was room for one. -/
lemma makes {σ : Type} {S : σ → Prop} {word : σ → Decoded UInt32} {Y : Prop} (h : Y) :
    (record word).Makes S fun _ => Y :=
  .field (.field (.of fun _ _ _ _ => h) (yields_true _ _) (by simp)) (yields_true _ _) (by simp)

lemma yields_ofDocument : Yields ofDocument (Within k) (Kept toDocument (fun s => [s]) k) := by
  intro x s hx hs
  simp only [ofDocument, Except.bind_eq_ok] at hs
  obtain ⟨p, hp, hs⟩ := hs
  obtain ⟨j, rfl⟩ : ∃ j, k = j + 1 :=
    yields_asRecord (Y := fun _ => ∃ j, k = j + 1) "RawSpan" (fun j hj => makes ⟨j, hj⟩) x p hx hp
  exact kept_of_check hs

lemma yields_ofDraft (origin : Origin) :
    Yields (ofDraft origin room) Draft.Any (Kept toDocument (fun s => [s]) room) := by
  intro x s hx hs
  simp only [ofDraft, Except.bind_eq_ok] at hs
  obtain ⟨p, hp, hs⟩ := hs
  obtain ⟨j, rfl⟩ : ∃ j, room = j + 1 :=
    Draft.yields_asRecord (Y := fun _ => ∃ j, room = j + 1) origin "RawSpan"
      (fun j hj => makes ⟨j, hj⟩) x p hx hp
  exact kept_of_check hs

/-- A record that goes on with the place it comes from. -/
lemma makes_field {α : Type} {r : Record Document (Option Span → α)} {Y : α → Prop}
    (h : r.Makes (Within k) fun g =>
      ∀ s, (∀ t ∈ s, Kept toDocument (fun s => [s]) k t) → Y (g s)) :
    (field r).Makes (Within k) Y :=
  .field h (yields_asOption yields_ofDocument) (by simp)

end Span

namespace TypeRef

variable {k : ℕ}

lemma makes {element : Document → Decoded TypeRef}
    (h : Yields element (Within k) (Kept toDocument (fun _ => []) k)) :
    ∀ v ∈ variants element, v.Makes (Within k) (Kept toDocument (fun _ => []) (k + 1)) := by
  simp only [variants, List.forall_mem_cons, List.not_mem_nil, false_imp_iff, implies_true,
    and_true]
  refine ⟨Variant.makes_carrying _ _ (.field (.of ?_) (yields_true _ _) (by simp)),
    Variant.makes_bare _ ?_,
    Variant.makes_carrying _ _ (.field (.of ?_) (yields_true _ _) (by simp)),
    Variant.makes_carrying _ _ (.field (.field (.of ?_) h (by simp)) (yields_true _ _) (by simp))⟩
  all_goals simp +contextual [kept_iff, toDocument]

lemma yields_ofLevels (n : ℕ) :
    Yields (ofLevels n) (Within k) (Kept toDocument (fun _ => []) k) := by
  induction n generalizing k with
  | zero => rintro x t - ⟨⟩
  | succ n ih =>
    refine yields_asTagged "TypeRef" ?_
    rintro j rfl
    exact makes ih

lemma yields_ofDocument : Yields ofDocument (Within k) (Kept toDocument (fun _ => []) k) :=
  fun x => yields_ofLevels (x.depth + 1) x

lemma yields_ofDraft {room : ℕ} :
    Yields (ofDraft room) Draft.Any (Kept toDocument (fun _ => []) room) := by
  refine Draft.yields_asTagged "TypeRef" ?_
  rintro j rfl
  exact makes yields_ofDocument

end TypeRef

lemma FieldDecl.yields_ofDocument {k : ℕ} :
    Yields ofDocument (Within k) (Kept toDocument (fun _ => []) k) := by
  refine yields_asRecord "FieldDecl" ?_
  rintro j rfl
  refine .field (.field (.of ?_) (yields_true _ _) (by simp)) TypeRef.yields_ofDocument (by simp)
  simp +contextual [kept_iff, toDocument]

lemma TypeDecl.yields_ofDraft {room : ℕ} :
    Yields (ofDraft room) Draft.Any (Kept toDocument (fun _ => []) room) := by
  refine Draft.yields_asTagged "TypeDecl" ?_
  rintro j rfl
  have hfields (make : List FieldDecl → TypeDecl)
      (h : ∀ fs, (Document.array (fs.map FieldDecl.toDocument)).Within j →
        Kept toDocument (fun _ => []) (j + 1) (make fs)) :
      ((Record.of make).required "fields" (asList FieldDecl.ofDocument)).Makes (Within j)
        (Kept toDocument (fun _ => []) (j + 1)) :=
    .field (.of fun fs hfs => h fs hfs.within) (yields_asList fun _ _ =>
      FieldDecl.yields_ofDocument) (by simp)
  simp only [variants, List.forall_mem_cons, List.not_mem_nil, false_imp_iff, implies_true,
    and_true]
  refine ⟨Variant.makes_carrying _ _ (hfields header ?_),
    Variant.makes_carrying _ _ (hfields struct ?_),
    Variant.makes_carrying _ _ (hfields headerUnion ?_), Variant.makes_bare _ ?_⟩
  all_goals simp +contextual [kept_iff, toDocument]

namespace Expr

variable {k : ℕ}

/-- The forms of an expression, at whatever place. -/
lemma makes {inner : Document → Decoded Expr}
    (h : Yields inner (Within k) (Kept toDocument spans k)) :
    ∀ v ∈ variants inner, v.Makes (Within k) fun e =>
      ∀ s, (∀ t ∈ s, Kept Span.toDocument (fun s => [s]) k t) →
        Kept toDocument spans (k + 1) (e.withSpan s) := by
  simp only [variants, List.forall_mem_cons, List.not_mem_nil, false_imp_iff, implies_true,
    and_true]
  refine ⟨Variant.makes_carrying _ _ (.field (.of ?_) (yields_true _ _) (by simp)),
    Variant.makes_carrying _ _ (.field (.field (.of ?_) h (by simp)) (yields_true _ _) (by simp)),
    Variant.makes_carrying _ _ (.field (.field (.of ?_) h (by simp)) h (by simp)),
    Variant.makes_carrying _ _ (.field (.field (.field (.of ?_) h (by simp)) (yields_true _ _)
      (by simp)) (yields_true _ _) (by simp)),
    Variant.makes_carrying _ _ (.field (.field (.of ?_) (yields_true _ _) (by simp))
      (yields_true _ _) (by simp)),
    Variant.makes_carrying _ _ (.field (.of ?_) (yields_true _ _) (by simp)),
    Variant.makes_carrying _ _ (.field (.field (.of ?_) (yields_true _ _) (by simp)) h (by simp)),
    Variant.makes_carrying _ _ (.field (.field (.field (.of ?_) (yields_true _ _) (by simp)) h
      (by simp)) h (by simp))⟩
  all_goals simp +contextual [kept_iff, toDocument, withSpan, spans, Span.memberOf, or_imp]

lemma splitSpan_mem {σ : Type} {span : σ → Decoded (Option Span)} {rest : σ → Decoded Document}
    {S : σ → Prop} {A : Option Span → Prop} {T : Document → Prop} (hspan : Yields span S A)
    (hrest : Yields rest S T) {s t : Option (Option Span)} {ms : List (Decoded String × σ)}
    {others : List (String × Document)} (hms : ∀ m ∈ ms, S m.2) (hs : ∀ o ∈ s, A o)
    (h : splitSpan span rest s ms = .ok (t, others)) :
    (∀ o ∈ t, A o) ∧ ∀ m ∈ others, T m.2 := by
  induction ms generalizing s t others with
  | nil => cases h; exact ⟨hs, by simp⟩
  | cons m ms ih =>
    obtain ⟨key, v⟩ := m
    rw [List.forall_mem_cons] at hms
    simp only [splitSpan, Except.bind_eq_ok] at h
    obtain ⟨k, -, h⟩ := h
    split at h
    · -- the place, which may come once only
      cases s with
      | some o => cases h
      | none =>
        simp only [Except.bind_eq_ok] at h
        obtain ⟨o, ho, h⟩ := h
        exact ih hms.2 (by simpa using hspan v o hms.1 ho) h
    · simp only [Except.bind_eq_ok, Prod.exists, pure, Except.pure, Except.ok.injEq,
        Prod.mk.injEq] at h
      obtain ⟨d, hd, t, tail, h, rfl, rfl⟩ := h
      obtain ⟨ht, htail⟩ := ih hms.2 hs h
      exact ⟨ht, List.forall_mem_cons.2 ⟨hrest v d hms.1 hd, htail⟩⟩

lemma yields_ofLevels (n : ℕ) : Yields (ofLevels n) (Within k) (Kept toDocument spans k) := by
  induction n generalizing k with
  | zero => rintro x e - ⟨⟩
  | succ n ih =>
    intro x e hx he
    cases x with
    | object ms =>
      obtain ⟨j, rfl, hms⟩ := within_object.1 hx
      simp only [ofLevels, Except.bind_eq_ok, Prod.exists, pure, Except.pure,
        Except.ok.injEq] at he
      obtain ⟨s, others, hsplit, e, he, rfl⟩ := he
      have hok : Yields Except.ok (Within j) (Within j) := by
        rintro d _ hd ⟨⟩
        exact hd
      obtain ⟨hs, hothers⟩ := splitSpan_mem (yields_asOption Span.yields_ofDocument) hok
        (Variant.forall_named hms) (by simp) hsplit
      refine ofTagged_mem (makes ih) hothers he (s.getD none) ?_
      cases s with
      | none => simp
      | some o => exact hs o rfl
    | _ => simp [ofLevels] at he

lemma yields_ofDocument : Yields ofDocument (Within k) (Kept toDocument spans k) :=
  fun x => yields_ofLevels (x.depth + 1) x

end Expr

lemma LocalDecl.yields_ofDraft {room : ℕ} :
    Yields (ofDraft room) Draft.Any (Kept toDocument spans room) := by
  refine Draft.yields_asTagged "LocalDecl" ?_
  rintro j rfl
  simp only [variants, List.forall_mem_cons, List.not_mem_nil, false_imp_iff, implies_true,
    and_true]
  refine ⟨Variant.makes_carrying _ _ (Span.makes_field (.field (.field (.field (.field (.of ?_)
      (yields_true _ _) (by simp)) TypeRef.yields_ofDocument (by simp)) (yields_true _ _) (by simp))
      (yields_true _ _) (by simp))),
    Variant.makes_carrying _ _ (Span.makes_field (.field (.field (.field (.of ?_)
      (yields_true _ _) (by simp)) TypeRef.yields_ofDocument (by simp))
      (yields_asOption Expr.yields_ofDocument) (by simp))),
    Variant.makes_carrying _ _ (Span.makes_field (.field (.field (.of ?_) (yields_true _ _)
      (by simp)) TypeRef.yields_ofDocument (by simp)))⟩
  all_goals simp +contextual [kept_iff, toDocument, spans, Span.memberOf, or_imp]

lemma Statement.yields_ofDraft {room : ℕ} (hroom : 2 ≤ room) :
    Yields (ofDraft room) Draft.Any (Kept toDocument spans room) := by
  refine Draft.yields_asTagged "Statement" ?_
  rintro j rfl
  have hj : 0 < j := by omega
  simp only [variants, List.forall_mem_cons, List.not_mem_nil, false_imp_iff, implies_true,
    and_true]
  refine ⟨Variant.makes_carrying _ _ (Span.makes_field (.field (.field (.of ?_)
      Expr.yields_ofDocument (by simp)) Expr.yields_ofDocument (by simp))),
    Variant.makes_carrying _ _ (Span.makes_field (.field (.field (.of ?_)
      Expr.yields_ofDocument (by simp)) (yields_asList fun _ _ => Expr.yields_ofDocument)
      (by simpa using kept_nil hj))),
    Variant.makes_bare _ ?_,
    Variant.makes_carrying _ _ (Span.makes_field (.field (.of ?_) (yields_true _ _) (by simp)))⟩
  all_goals simp +contextual [kept_iff, toDocument, spans, Span.memberOf, or_imp]

lemma Keyset.yields_ofDocument {k : ℕ} :
    Yields ofDocument (Within k) (Kept toDocument spans k) := by
  refine yields_asTagged "Keyset" ?_
  rintro j rfl
  simp only [variants, List.forall_mem_cons, List.not_mem_nil, false_imp_iff, implies_true,
    and_true]
  refine ⟨Variant.makes_carrying _ _ (.field (.of ?_) Expr.yields_ofDocument (by simp)),
    Variant.makes_carrying _ _ (.field (.field (.of ?_) Expr.yields_ofDocument (by simp))
      Expr.yields_ofDocument (by simp)),
    Variant.makes_bare _ ?_⟩
  all_goals simp +contextual [kept_iff, toDocument, spans]

lemma SelectCase.yields_ofDocument {k : ℕ} :
    Yields ofDocument (Within k) (Kept toDocument spans k) := by
  refine yields_asRecord "SelectCase" ?_
  rintro j rfl
  refine .field (.field (.of ?_) (yields_asList fun _ _ => Keyset.yields_ofDocument) (by simp))
    (yields_true _ _) (by simp)
  simp +contextual [kept_iff, toDocument, spans]

lemma Transition.yields_ofDraft {room : ℕ} :
    Yields (ofDraft room) Draft.Any (Kept toDocument spans room) := by
  refine Draft.yields_asTagged "Transition" ?_
  rintro j rfl
  simp only [variants, List.forall_mem_cons, List.not_mem_nil, false_imp_iff, implies_true,
    and_true]
  refine ⟨Variant.makes_carrying _ _ (.field (.of ?_) (yields_true _ _) (by simp)),
    Variant.makes_carrying _ _ (.field (.field (.of ?_)
      (yields_asList fun _ _ => Expr.yields_ofDocument) (by simp))
      (yields_asList fun _ _ => SelectCase.yields_ofDocument) (by simp))⟩
  all_goals simp +contextual [kept_iff, toDocument, spans]

lemma State.yields_ofDraft (origin : Origin) {room : ℕ} (hroom : 4 ≤ room) :
    Yields (ofDraft origin room) Draft.Any (Kept toDocument spans room) := by
  refine Draft.yields_asRecord origin "ParserState" ?_
  rintro j rfl
  -- a list of statements that was left out takes a level when it is written
  have hj : 0 < j := by omega
  refine .field (.field (.field (.field (.of ?_) (yields_true _ _) (by simp))
    (Draft.yields_asList fun i hi => Statement.yields_ofDraft (by omega))
    (by simpa using kept_nil hj)) (Draft.yields_asOption Transition.yields_ofDraft) (by simp))
    (Draft.yields_asOption (Span.yields_ofDraft origin)) (by simp)
  simp +contextual [kept_iff, toDocument, spans, Span.memberOf, or_imp]

lemma Param.yields_ofDraft (origin : Origin) {room : ℕ} :
    Yields (ofDraft origin room) Draft.Any (Kept toDocument (fun p => p.span.toList) room) := by
  refine Draft.yields_asRecord origin "Param" ?_
  rintro j rfl
  refine .field (.field (.field (.field (.of ?_) (yields_true _ _) (by simp))
    (yields_true _ _) (by simp)) TypeRef.yields_ofDraft (by simp))
    (Draft.yields_asOption (Span.yields_ofDraft origin)) (by simp)
  simp +contextual [kept_iff, toDocument, Span.memberOf, or_imp]

namespace TypeTable

lemma mem_put {name : String} {decl : TypeDecl} {es : List (String × TypeDecl)}
    {e : String × TypeDecl} (h : e ∈ put name decl es) : e = (name, decl) ∨ e ∈ es := by
  induction es with
  | nil => simpa [put] using h
  | cons d es ih =>
    rw [put] at h
    split at h <;> simp only [List.mem_cons] at h ⊢ <;> tauto

/-- A table holds nothing but what has been declared. -/
lemma mem_ofList {es : List (String × TypeDecl)} {e : String × TypeDecl}
    (h : e ∈ (ofList es).entries) : e ∈ es := by
  have hfold : ∀ t : TypeTable, e ∈ (es.foldl (fun t d => t.insert d.1 d.2) t).entries →
      e ∈ t.entries ∨ e ∈ es := by
    clear h
    induction es with
    | nil => exact fun t h => .inl h
    | cons d es ih =>
      intro t h
      rcases ih (t.insert d.1 d.2) h with h | h
      · rcases mem_put h with rfl | h
        · exact .inr (by simp)
        · exact .inl h
      · exact .inr (by simp [h])
  simpa [empty] using hfold empty h

lemma yields_ofDraft {room : ℕ} :
    Yields (ofDraft room) Draft.Any fun t =>
      (object (t.entries.map fun e => (e.1, e.2.toDocument))).Within room := by
  intro x t _ ht
  simp only [ofDraft, Except.map_eq_ok] at ht
  obtain ⟨es, hes, rfl⟩ := ht
  obtain ⟨j, rfl, hmem⟩ := Draft.mem_of_asEntries hes
  simp only [within_object_succ, List.forall_mem_map]
  intro e he
  obtain ⟨y, hy⟩ := hmem e (mem_ofList he)
  exact (TypeDecl.yields_ofDraft y e.2 trivial hy).within

end TypeTable

/-- **What is accepted can be written.** -/
theorem ParserUnit.yields_ofDraft (origin : Origin) {room : ℕ} (hroom : 6 ≤ room) :
    Yields (ofDraft origin room) Draft.Any (Kept toDocument spans room) := by
  refine Draft.yields_asRecord origin "ParserUnit" ?_
  rintro j rfl
  have hj : 0 < j := by omega
  refine .field (.field (.field (.field (.field (.of ?_) (yields_true _ _) (by simp))
    TypeTable.yields_ofDraft ?_)
    (Draft.yields_asList fun _ _ => Param.yields_ofDraft origin) (by simpa using kept_nil hj))
    (Draft.yields_asList fun _ _ => LocalDecl.yields_ofDraft) (by simpa using kept_nil hj))
    (Draft.yields_asList fun i hi => State.yields_ofDraft origin (by omega)) (by simp)
  · intro name _ types htypes params hparams locals hlocals states hstates
    refine ⟨?_, allOrdered_append.2 ⟨allOrdered_append.2 ⟨hparams.ordered, hlocals.ordered⟩,
      hstates.ordered⟩⟩
    simp [toDocument, htypes, hparams.within, hlocals.within, hstates.within]
  · simpa [TypeTable.empty, within_object] using hj

/-! ### Written numbers -/

lemma countingItems_iff {ds : List Document} : CountingItems ds ↔ ∀ d ∈ ds, d.Counting := by
  induction ds with
  | nil => simp [CountingItems]
  | cons d ds ih => simp [CountingItems, ih]

lemma countingMembers_iff {ms : List (String × Document)} :
    CountingMembers ms ↔ ∀ m ∈ ms, m.2.Counting := by
  induction ms with
  | nil => simp [CountingMembers]
  | cons m ms ih =>
    obtain ⟨k, d⟩ := m
    simp only [CountingMembers, ih, List.forall_mem_cons]

@[simp] lemma counting_array {ds : List Document} :
    (Document.array ds).Counting ↔ ∀ d ∈ ds, d.Counting := by
  rw [Counting, countingItems_iff]

@[simp] lemma counting_object {ms : List (String × Document)} :
    (object ms).Counting ↔ ∀ m ∈ ms, m.2.Counting := by
  rw [Counting, countingMembers_iff]

@[simp] lemma counting_string (s : String) : (string s).Counting := trivial

@[simp] lemma counting_bool (b : Bool) : (Document.bool b).Counting := trivial

@[simp] lemma counting_ofWord (w : UInt64) : (ofWord w).Counting := ⟨w, rfl⟩

@[simp] lemma Span.counting (s : Span) : s.toDocument.Counting := by
  simp [toDocument]

@[simp] lemma TypeRef.counting (t : TypeRef) : t.toDocument.Counting := by
  induction t <;> simp [toDocument, taggedObject, *]

@[simp] lemma Expr.counting (e : Expr) : e.toDocument.Counting := by
  induction e <;> simp +contextual [toDocument, taggedObject, Span.memberOf, or_imp, *]

@[simp] lemma TypeDecl.counting (t : TypeDecl) : t.toDocument.Counting := by
  cases t <;> simp [toDocument, taggedObject, FieldDecl.toDocument]

@[simp] lemma LocalDecl.counting (d : LocalDecl) : d.toDocument.Counting := by
  cases d <;> simp +contextual [toDocument, taggedObject, Span.memberOf, or_imp]

@[simp] lemma Statement.counting (s : Statement) : s.toDocument.Counting := by
  cases s <;> simp +contextual [toDocument, taggedObject, Span.memberOf, or_imp]

@[simp] lemma Keyset.counting (k : Keyset) : k.toDocument.Counting := by
  cases k <;> simp [toDocument, taggedObject]

@[simp] lemma Transition.counting (t : Transition) : t.toDocument.Counting := by
  cases t <;> simp [toDocument, taggedObject, SelectCase.toDocument]

@[simp] lemma ParserUnit.counting (u : ParserUnit) : u.toDocument.Counting := by
  have htypes : (object (u.types.entries.map fun e => (e.1, e.2.toDocument))).Counting := by
    rw [counting_object, List.forall_mem_map]
    exact fun e _ => e.2.counting
  have hparam (p : Param) : p.toDocument.Counting := by
    simp +contextual [Param.toDocument, Span.memberOf, or_imp]
  have hstate (s : State) : s.toDocument.Counting := by
    simp +contextual [State.toDocument, Span.memberOf, or_imp]
  rw [toDocument, counting_object]
  simp only [List.forall_mem_cons, htypes, counting_string, counting_array, List.forall_mem_map,
    hparam, hstate, LocalDecl.counting, List.not_mem_nil, false_imp_iff, implies_true, and_self]

/-! ### Reading again what has been written -/

namespace ParserUnit

lemma parse_gives (u : ParserUnit) (hd : u.toDocument.depth ≤ depthLimit) :
    Gives (parse u.toDocument.render.toList) (AllOrdered u.spans) u := by
  obtain ⟨x, hx, hs⟩ := read_chars u.toDocument u.counting
  have h := ofDraft_toDocument .text depthLimit u x ⟨hs, hd⟩
  refine .congr ?_ ((h.bind (Gives.pure u)).iff (by simp))
  simp [parse, Document.render, hx, skipBlanks]

lemma parse_kept {text : List Char} {u : ParserUnit} (h : parse text = .ok u) :
    Kept toDocument spans depthLimit u := by
  simp only [parse, Except.bind_eq_ok] at h
  obtain ⟨v, hv, h⟩ := h
  split at h
  · cases h
    exact yields_ofDraft .text (by decide) _ u trivial hv
  · cases h

/-- **Reading undoes writing**: a parser whose text is not too deep is read back from it if none of
its spans is inverted, and refused otherwise. What is read from any text has no inverted span, and
is read back from its own text. -/
theorem parse_render :
    (∀ u : ParserUnit, u.toDocument.depth ≤ depthLimit →
      ((∀ s ∈ u.spans, s.start ≤ s.stop) → parse u.toDocument.render.toList = .ok u) ∧
      ((∃ s ∈ u.spans, s.stop < s.start) →
        ∃ e, parse u.toDocument.render.toList = .error e)) ∧
    ∀ text u, parse text = .ok u →
      (∀ s ∈ u.spans, s.start ≤ s.stop) ∧ parse u.toDocument.render.toList = .ok u := by
  refine ⟨fun u hd => ⟨(parse_gives u hd).ok, ?_⟩, fun text u h => ?_⟩
  · -- the readers give nothing for a unit with an inverted span
    rintro ⟨s, hs, hlt⟩
    refine (parse_gives u hd).error fun hordered => ?_
    exact UInt32.not_le.2 hlt (hordered s hs)
  · have hkept := parse_kept h
    exact ⟨hkept.ordered, (parse_gives u hkept.within).ok hkept.ordered⟩

/-- A parser whose name needs quoting, with the given range on the key of its selection. -/
def quotedParser (start stop : UInt32) : ParserUnit where
  name := "p\"é\n"
  types := .ofList [("h", .header [⟨"f", .bits 8⟩]), ("s", .struct [⟨"g", .stack (.named "h") 2⟩])]
  params := [⟨"pkt", .read, .named "packet_in", some ⟨0, 4294967295⟩⟩]
  locals := [.valueSet "vs" (.bits 16) 4 (some "ctl") none,
    .var "x" .bool (some (.unary .not (.bool true none) (some ⟨1, 1⟩))) none]
  states := [⟨"start", [.call (.member (.path "pkt" none) "extract" none)
      [.index (.path "s" none) (.constant 18446744073709551615 (some 64) none) none] none, .empty],
    some (.select [.path "x" (some ⟨start, stop⟩)]
      [⟨[.mask (.bool true none) (.bool false none)], "accept"⟩, ⟨[.default], "reject"⟩]), none⟩]

theorem parse_render_quoted :
    (quotedParser 3 5).toDocument.depth ≤ depthLimit ∧
    parse (quotedParser 3 5).toDocument.render.toList = .ok (quotedParser 3 5) ∧
    ∃ e, parse (quotedParser 5 3).toDocument.render.toList = .error e :=
  ⟨by decide, (parse_render.1 (quotedParser 3 5) (by decide)).1 (by decide),
    (parse_render.1 (quotedParser 5 3) (by decide)).2 (by decide)⟩

end ParserUnit

end PacketSections
