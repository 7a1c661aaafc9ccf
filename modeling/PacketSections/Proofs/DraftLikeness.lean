import Mathlib
import PacketSections.Proofs.Likeness

/-!
Readers of drafts cannot tell what is alike.

Parsers, parameters, states and spans are read from the draft itself, member by member. What has a
tag is read from its document, where the likeness of drafts has become one of documents.
-/

namespace PacketSections

open Json

variable {R : ℕ → ℕ → Form → Draft → Draft → Prop} {room room' : ℕ} {f : Form} {p : Part}
  {α β : Type}

/-! ### What readers of drafts accept -/

namespace Json.Draft

lemma asUnit_iff {x : Draft} : x.asUnit = .ok () ↔ x = .null := by
  cases x <;> simp [asUnit]

lemma asList_iff {item : ℕ → Draft → Decoded α} {x : Draft} {as : List α} :
    x.asList room item = .ok as ↔ ∃ i after xs, room = i + 1 ∧ x = .array after xs none ∧
      xs.mapM (item i) = .ok as := by
  cases x with
  | array after xs close =>
    simp only [asList, enter_eq_ok, Except.bind_eq_ok]
    cases close <;> simp [stop]
  | _ => simp [asList]

lemma asEntries_iff {item : ℕ → Draft → Decoded α} {x : Draft} {es : List (String × α)} :
    x.asEntries room item = .ok es ↔ ∃ i after xs vs, room = i + 1 ∧ x = .object after xs none ∧
      named xs = Record.keyed vs ∧
      List.Forall₂ (fun v e => v.1 = e.1 ∧ item i v.2 = .ok e.2) vs es := by
  have hnamed (i : ℕ) (xs : List (Name × Draft)) (es : List (String × α)) :
      ((named xs).mapM fun m => do let k ← m.1; return (k, ← item i m.2)) = Except.ok es ↔
        ∃ vs, named xs = Record.keyed vs ∧
          List.Forall₂ (fun v e => v.1 = e.1 ∧ item i v.2 = .ok e.2) vs es := by
    induction xs generalizing es with
    | nil =>
      constructor
      · rintro ⟨⟩
        exact ⟨[], rfl, .nil⟩
      · rintro ⟨vs, hvs, hes⟩
        obtain rfl : vs = [] := List.map_eq_nil_iff.mp hvs.symm
        cases hes
        rfl
    | cons x xs ih =>
      obtain ⟨name, x⟩ := x
      simp only [named_cons_eq_keyed]
      simp only [named, List.map_cons, List.mapM_cons, Except.bind_eq_ok, Decoded.ofFault_eq_ok,
        pure, Except.pure, Except.ok.injEq] at ih ⊢
      constructor
      · rintro ⟨_, ⟨k, hk, a, ha, rfl⟩, es, hes, rfl⟩
        obtain ⟨vs, hvs, hes⟩ := (ih es).mp hes
        exact ⟨_, ⟨k, vs, hk, hvs, rfl⟩, .cons ⟨rfl, ha⟩ hes⟩
      · rintro ⟨_, ⟨k, vs, hk, hvs, rfl⟩, hes⟩
        obtain _ | @⟨_, e, _, es, ⟨hke, ha⟩, hes⟩ := hes
        obtain rfl : k = e.1 := hke
        exact ⟨e, ⟨e.1, hk, e.2, ha, rfl⟩, es, (ih es).mpr ⟨vs, hvs, hes⟩, rfl⟩
  cases x with
  | object after xs close =>
    simp only [asEntries, enter_eq_ok, Except.bind_eq_ok, hnamed]
    cases close with
    | some b => simp [stop]
    | none =>
      constructor
      · rintro ⟨i, rfl, es, ⟨vs, hvs, hes⟩, ⟨⟩⟩
        exact ⟨i, after, xs, vs, rfl, rfl, hvs, hes⟩
      · rintro ⟨i, _, _, vs, rfl, ⟨⟩, hvs, hes⟩
        exact ⟨i, rfl, es, ⟨vs, hvs, hes⟩, rfl⟩
  | _ => simp [asEntries]

lemma choiceOfText_iff {table : List (String × α)} {x : Draft} {a : α} :
    choiceOfText room table x = .ok a ↔
      (∃ s, x = .string (.ok s) ∧ pick table s = .ok a) ∨
      ∃ i after name k, room = i + 1 ∧ x = .object after [(name, .null)] none ∧
        name.reading = .ok k ∧ pick table k = .ok a := by
  cases x with
  | string v => simp [choiceOfText]
  | object after xs close =>
    rcases xs with _ | ⟨⟨name, x⟩, _ | ⟨y, ys⟩⟩
    · cases close <;> simp [choiceOfText]
    · simp only [choiceOfText, enter_eq_ok, Except.bind_eq_ok, Decoded.ofFault_eq_ok]
      constructor
      · rintro ⟨i, rfl, k, hk, b, hb, _, hx, ha⟩
        obtain rfl := asUnit_iff.mp hx
        cases close with
        | none => cases ha; exact .inr ⟨i, after, name, k, rfl, rfl, hk, hb⟩
        | some b =>
          simp only at ha
          split at ha <;> cases ha
      · rintro (⟨s, ⟨⟩, -⟩ | ⟨i, _, _, k, rfl, ⟨⟩, hk, ha⟩)
        exact ⟨i, rfl, k, hk, a, ha, (), rfl, rfl⟩
    · simp [choiceOfText]
  | broken head why =>
    cases head with
    | none => simp [choiceOfText]
    | some c =>
      simp only [choiceOfText]
      split <;> simp
  | _ => simp [choiceOfText]

lemma completes_choice_iff {x : Draft} {k : String} :
    x.Completes room (.object [(k, .null)]) ↔ ∃ i after name, room = i + 1 ∧
      x = .object after [(name, .null)] none ∧ name.reading = .ok k := by
  rw [completes_object_iff]
  constructor
  · rintro ⟨i, after, xs, vs, rfl, rfl, hvs, hms⟩
    obtain _ | @⟨v, _, _, _, ⟨hk, hnull⟩, ⟨⟩⟩ := hms
    obtain ⟨k', v⟩ := v
    obtain rfl := completes_null_iff.mp hnull
    obtain rfl : k' = k := hk
    cases xs with
    | nil => cases hvs
    | cons x xs =>
      obtain ⟨name, x⟩ := x
      obtain ⟨_, _, hname, hnil, ⟨⟩⟩ := named_cons_eq_keyed.mp hvs
      obtain rfl : xs = [] := List.map_eq_nil_iff.mp hnil
      exact ⟨i, after, name, rfl, rfl, hname⟩
  · rintro ⟨i, after, name, rfl, rfl, hname⟩
    exact ⟨i, after, _, [(k, .null)], rfl, rfl,
      named_cons_eq_keyed.mpr ⟨k, [], hname, rfl, rfl⟩, .cons ⟨rfl, by simp⟩ .nil⟩

lemma closeItems_iff {origin : Origin} {n : ℕ} {rest : List Draft} {close : Option Break} :
    closeItems origin n rest close = .ok () ↔ rest = [] ∧ close = none := by
  cases origin <;> cases rest <;> cases close <;> simp [closeItems]
  split <;> simp

lemma skip_iff {x : Draft} : x.skip = .ok () ↔ x.skipFault = none := by
  unfold skip
  split <;> simp_all

end Json.Draft

namespace Likeness

variable (hR : Likeness R)

include hR

lemma carries_draft_string : Carries (R room room' f) Draft.asString Draft.asString Eq := by
  refine .of_eq fun x y s hxy hs => ?_
  cases x with
  | string v =>
    obtain rfl := Decoded.ofFault_eq_ok.mp hs
    have hy := hR.rigid (d := .string s) hxy (by simp) (.string f s)
    obtain rfl := Draft.completes_string_iff.mp hy
    rfl
  | _ => simp [Draft.asString] at hs

lemma carries_draft_word32 : Carries (R room room' f) Draft.asWord32 Draft.asWord32 Eq := by
  refine .of_eq fun x y w hxy hw => ?_
  unfold Draft.asWord32 at hw
  split at hw
  · next n =>
    have hy := hR.rigid (d := .number n) hxy (by simp) (.number f n)
    obtain rfl := Draft.completes_number_iff.mp hy
    exact hw
  · simp at hw

/-- A choice that is written as an object is the same object on both sides. -/
lemma carries_draft_choice {table : List (String × α)} (origin : Origin) :
    Carries (R room room' .plain) (Draft.asChoice .text room table)
      (Draft.asChoice origin room' table) Eq := by
  refine .of_eq fun x y a hxy ha => ?_
  rcases Draft.choiceOfText_iff.mp ha with ⟨s, rfl, hs⟩ | ⟨i, after, name, k, rfl, rfl, hk, hpick⟩
  · have hy := hR.rigid (d := .string s) hxy (by simp) (.string _ s)
    obtain rfl := Draft.completes_string_iff.mp hy
    cases origin <;> exact hs
  · have hx := Draft.completes_choice_iff.mpr ⟨i, after, name, rfl, rfl, hk⟩
    have hy := hR.rigid hxy hx (.choice k)
    obtain ⟨j, after', name', rfl, rfl, hk'⟩ := Draft.completes_choice_iff.mp hy
    cases origin with
    | text => exact Draft.choiceOfText_iff.mpr (.inr ⟨j, after', name', k, rfl, rfl, hk', hpick⟩)
    | tree => simp [Draft.asChoice, Draft.choiceOfTree, hk', hpick, Draft.asUnit]

lemma carries_draft_option {decode decode' : Draft → Decoded α}
    (h : Carries (R room room' f) decode decode' Eq) :
    Carries (R room room' f) (Draft.asOption decode) (Draft.asOption decode') Eq := by
  refine .of_eq fun x y o hxy ho => ?_
  by_cases hx : x = .null
  · subst hx
    have hy := hR.rigid (d := .null) hxy (by simp) (.null f)
    obtain rfl := Draft.completes_null_iff.mp hy
    exact ho
  · have hy : y ≠ .null := fun hy => hx (hR.null (hy ▸ hxy))
    have hread : ∀ {decode : Draft → Decoded α} {x : Draft}, x ≠ .null →
        Draft.asOption decode x = (decode x).map some := by
      intro decode x hx
      cases x with
      | null => exact absurd rfl hx
      | _ => rfl
    rw [hread hx] at ho
    rw [hread hy]
    exact (h.map some).ok hxy ho

lemma carries_draft_list {item item' : ℕ → Draft → Decoded α}
    (h : ∀ i j, Carries (R i j (.one p)) (item i) (item' j) Eq) :
    Carries (R room room' (.many p)) (Draft.asList room item) (Draft.asList room' item') Eq := by
  refine .of_eq fun x y as hxy has => ?_
  obtain ⟨i, after, xs, rfl, rfl, hxs⟩ := Draft.asList_iff.mp has
  obtain ⟨j, after', ys, rfl, rfl, hys⟩ := hR.list hxy
  exact Draft.asList_iff.mpr ⟨j, after', ys, rfl, rfl, (h i j).mapM hys hxs⟩

omit hR in
/-- Entries under the same names in the same order are read alike. -/
lemma carries_draft_entries {item : ℕ → Draft → Decoded α}
    (hitem : ∀ i j, Carries (R i j (.one p)) (item i) (item j) Eq) (hentries : KeepsEntries R) :
    Carries (R room room' (.table p)) (Draft.asEntries room item) (Draft.asEntries room' item)
      Eq := by
  refine .of_eq fun x y es hxy hes => ?_
  obtain ⟨i, after, xs, vs, rfl, rfl, hvs, hread⟩ := Draft.asEntries_iff.mp hes
  obtain ⟨j, after', ys, ws, rfl, rfl, hws, hvw⟩ := hentries hxy hvs
  refine Draft.asEntries_iff.mpr ⟨j, after', ys, ws, rfl, rfl, hws, ?_⟩
  clear hes hxy hvs hws
  induction hvw generalizing es with
  | nil => cases hread; exact .nil
  | cons hvw _ ih =>
    obtain _ | ⟨⟨hk, hv⟩, hread⟩ := hread
    exact .cons ⟨hvw.1 ▸ hk, (hitem i j).ok hvw.2 hv⟩ (ih _ hread)

/-- Records are read from the draft itself: members that belong to no field are skipped. -/
lemma carries_draft_record {fs : Fields} (hp : p.shape = .record fs) {r : ℕ → Record Draft α}
    {r' : ℕ → Record Draft β} {Y : α → β → Prop} (name : String) (origin : Origin)
    (h : ∀ i j, (r i).Follows (R i j) fs (r' j) Y) :
    Carries (R room room' (.one p)) (Draft.asRecord .text room name r)
      (Draft.asRecord origin room' name r') Y := by
  intro x y a hxy ha
  cases x with
  | array after xs close =>
    simp only [Draft.asRecord, Draft.enter_eq_ok, Except.bind_eq_ok, Prod.exists, pure,
      Except.pure, Except.ok.injEq] at ha
    obtain ⟨i, rfl, a, rest, hr, _, hclose, rfl⟩ := ha
    obtain ⟨rfl, rfl⟩ := Draft.closeItems_iff.mp hclose
    obtain ⟨j, after', ys, rfl, rfl, hys⟩ := hR.items hxy
    rw [Part.items, hp] at hys
    obtain ⟨b, hr', hY⟩ := (h i j).ofItems ("struct " ++ name) hys hr
    refine ⟨b, ?_, hY⟩
    simp only [Draft.asRecord, Draft.enter_eq_ok, Except.bind_eq_ok, Prod.exists]
    exact ⟨j, rfl, b, [], hr', (), Draft.closeItems_iff.mpr ⟨rfl, rfl⟩, rfl⟩
  | object after xs close =>
    simp only [Draft.asRecord, Draft.enter_eq_ok] at ha
    obtain ⟨i, rfl, ha⟩ := ha
    obtain ⟨s, hfill, hfin⟩ := Except.bind_eq_ok.mp ha
    obtain ⟨vs, hvs⟩ := Record.exists_keyed_of_fill hfill
    cases close with
    | some b => cases hfin
    | none =>
      obtain ⟨j, after', ys, ws, rfl, rfl, hws, hkeeps⟩ := hR.members hxy hvs
      rw [Part.fields, hp] at hkeeps
      rw [hvs] at ha
      have hskip : ∀ w ∈ ws, w.1 ∉ fs.map Prod.fst → w.2.skip = .ok () := by
        intro w hw hwf
        refine Draft.skip_iff.mpr (hkeeps.foreign (fun v hv hvf => ?_) w hw hwf)
        exact Draft.skip_iff.mp ((h i j).skips ha v hv hvf)
      obtain ⟨b, hb, hY⟩ := (h i j).members _ Draft.skip hkeeps.values hskip ha
      refine ⟨b, ?_, hY⟩
      simp only [Draft.asRecord, Draft.enter_eq_ok, hws]
      exact ⟨j, rfl, hb⟩
  | _ => simp [Draft.asRecord] at ha

/-- A tagged object is read from its document. -/
lemma carries_draft_tagged {table : List (String × Fields)} {ws : List (Variant α)}
    (hp : p.shape = .tagged table) (owner : String)
    (h : ∀ m, Variant.InStep (Mirrors R m) table ws ws) :
    Carries (R room room' (.one p)) (Draft.asTagged room owner ws)
      (Draft.asTagged room' owner ws) Eq := by
  refine .of_eq fun x y a hxy ha => ?_
  obtain ⟨d, hd, hspell, ha⟩ := Draft.asTagged_iff.mp ha
  obtain ⟨e, he⟩ := hR.completes hxy hd
  have hde : Mirrors R e.depth (.one p) d e := ⟨le_refl _, room, room', x, y, hxy, hd, he⟩
  obtain ⟨hread, hspell'⟩ := hR.asTagged_mirrors hp (fun k _ => h k) hde ha
  exact Draft.asTagged_iff.mpr ⟨e, he, hspell' hspell, hread⟩

end Likeness

/-! ### Parts of drafts -/

section drafts

variable (hR : Likeness R)

include hR

lemma Span.carries_ofDraft (origin : Origin) :
    Carries (R room room' (.one .span)) (ofDraft .text room) (ofDraft origin room') Eq :=
  (hR.carries_draft_record rfl "RawSpan" origin fun _ _ =>
    record_follows hR.carries_draft_word32).bind _

lemma TypeRef.carries_ofDraft :
    Carries (R room room' (.one .typeRef)) (ofDraft room) (ofDraft room') Eq :=
  hR.carries_draft_tagged rfl "TypeRef" fun _ => variants_inStep hR (carries_ofDocument hR)

lemma TypeDecl.carries_ofDraft :
    Carries (R room room' (.one .typeDecl)) (ofDraft room) (ofDraft room') Eq :=
  hR.carries_draft_tagged rfl "TypeDecl" fun _ => variants_inStep hR

lemma Param.carries_ofDraft (origin : Origin) :
    Carries (R room room' (.one .param)) (ofDraft .text room) (ofDraft origin room') Eq :=
  hR.carries_draft_record rfl "Param" origin fun _ _ =>
    .optional (.required (.optional (.required (.of (by simp)) hR.carries_draft_string (by simp))
      (hR.carries_draft_choice origin) rfl (by decide)) (TypeRef.carries_ofDraft hR) (by decide))
      (hR.carries_draft_option (Span.carries_ofDraft hR origin)) rfl (by decide)

lemma LocalDecl.carries_ofDraft :
    Carries (R room room' (.one .localDecl)) (ofDraft room) (ofDraft room') Eq :=
  hR.carries_draft_tagged rfl "LocalDecl" fun _ => variants_inStep hR

lemma Statement.carries_ofDraft :
    Carries (R room room' (.one .statement)) (ofDraft room) (ofDraft room') Eq :=
  hR.carries_draft_tagged rfl "Statement" fun _ => variants_inStep hR

lemma Transition.carries_ofDraft :
    Carries (R room room' (.one .transition)) (ofDraft room) (ofDraft room') Eq :=
  hR.carries_draft_tagged rfl "Transition" fun _ => variants_inStep hR

lemma State.carries_ofDraft (origin : Origin) :
    Carries (R room room' (.one .state)) (ofDraft .text room) (ofDraft origin room') Eq :=
  hR.carries_draft_record rfl "ParserState" origin fun _ _ =>
    .optional (.optional (.optional (.required (.of (by simp)) hR.carries_draft_string (by simp))
      (hR.carries_draft_list fun _ _ => Statement.carries_ofDraft hR) rfl (by decide))
      (hR.carries_draft_option (Transition.carries_ofDraft hR)) rfl (by decide))
      (hR.carries_draft_option (Span.carries_ofDraft hR origin)) rfl (by decide)

omit hR in
/-- The parsers differ at most in their type tables, which are related by `T`. -/
structure ParserUnit.SameBut (T : TypeTable → TypeTable → Prop) (u v : ParserUnit) : Prop where
  name : v.name = u.name
  types : T u.types v.types
  params : v.params = u.params
  locals : v.locals = u.locals
  states : v.states = u.states

omit hR in
lemma ParserUnit.SameBut.eq {T : TypeTable → TypeTable → Prop} {u v : ParserUnit}
    (h : SameBut T u v) : v = { u with types := v.types } := by
  rw [← h.name, ← h.params, ← h.locals, ← h.states]

/-- What is like a parser is read as the same parser, but for what becomes of the type table. -/
theorem ParserUnit.carries_ofDraft {T : TypeTable → TypeTable → Prop} (origin : Origin)
    (htypes : ∀ i j,
      Carries (R i j (.table .typeDecl)) (TypeTable.ofDraft i) (TypeTable.ofDraft j) T)
    (hempty : T .empty .empty) :
    Carries (R room room' (.one .unit)) (ofDraft .text room) (ofDraft origin room')
      (SameBut T) := by
  refine hR.carries_draft_record rfl "ParserUnit" origin fun i j => ?_
  refine .required (.optional (.optional (.optional (.required (.of ?_) hR.carries_draft_string
    (by simp)) (htypes i j) hempty (by decide))
    (hR.carries_draft_list fun _ _ => Param.carries_ofDraft hR origin) rfl (by decide))
    (hR.carries_draft_list fun _ _ => LocalDecl.carries_ofDraft hR) rfl (by decide))
    (hR.carries_draft_list fun _ _ => State.carries_ofDraft hR origin) (by decide)
  rintro name _ rfl types types' ht params _ rfl locals _ rfl states _ rfl
  exact ⟨rfl, ht, rfl, rfl, rfl⟩

lemma TypeTable.carries_ofDraft (hentries : KeepsEntries R) :
    Carries (R room room' (.table .typeDecl)) (ofDraft room) (ofDraft room') Eq := by
  have h : Carries (R room room' (.table .typeDecl)) (Draft.asEntries room TypeDecl.ofDraft)
      (Draft.asEntries room' TypeDecl.ofDraft) Eq :=
    Likeness.carries_draft_entries (fun _ _ => TypeDecl.carries_ofDraft hR) hentries
  exact h.map ofList

/-- What is like a parser, its type table included, is read as that parser. -/
theorem ParserUnit.ofDraft_of_like (hentries : KeepsEntries R) {origin : Origin} {x y : Draft}
    {u : ParserUnit} (hxy : R room room' (.one .unit) x y) (hu : ofDraft .text room x = .ok u) :
    ofDraft origin room' y = .ok u := by
  obtain ⟨v, hv, hsame⟩ :=
    carries_ofDraft hR origin (fun _ _ => TypeTable.carries_ofDraft hR hentries) rfl x y u hxy hu
  rwa [hsame.eq, ← hsame.types] at hv

end drafts

end PacketSections
