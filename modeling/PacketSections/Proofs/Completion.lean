import Mathlib
import PacketSections.Proofs.Members

/-!
Drafts that are documents.

A draft completes to a document if its parts do, and a tagged object is read from a draft just as
from the document to which it completes, except that a draft has to spell its tag out.
-/

namespace PacketSections.Json

variable {α : Type}

/-- The tag, where there is one, is a string. -/
def Document.Spelled : Document → Prop
  | object ms => ∀ t ∈ valuesOf tagName ms, ∃ s, t = string s
  | array (t :: _) => ∃ s, t = string s
  | _ => True

lemma Document.spelled_cons {k : String} {d : Document} {ms : List (String × Document)} :
    (object ((k, d) :: ms)).Spelled ↔
      (k = tagName → ∃ s, d = string s) ∧ (object ms).Spelled := by
  simp only [Spelled, valuesOf_cons]
  by_cases hk : k = tagName <;> simp [hk]

lemma Record.keyed_injective {σ : Type} : Function.Injective (keyed : List (String × σ) → _) :=
  List.map_injective_iff.mpr fun x y h => by
    simp only [Prod.mk.injEq, Except.ok.injEq] at h
    exact Prod.ext h.1 h.2

namespace Draft

variable {room : ℕ}

lemma named_cons_eq_keyed {name : Name} {x : Draft} {xs : List (Name × Draft)}
    {vs : List (String × Draft)} :
    named ((name, x) :: xs) = Record.keyed vs ↔
      ∃ k ws, name.reading = .ok k ∧ named xs = Record.keyed ws ∧ vs = (k, x) :: ws := by
  cases vs with
  | nil => simp [named, Record.keyed]
  | cons v vs =>
    obtain ⟨k, v⟩ := v
    simp only [named, Record.keyed, List.map_cons, List.cons.injEq, Prod.mk.injEq,
      Decoded.ofFault_eq_ok]
    constructor
    · rintro ⟨⟨hk, rfl⟩, hs⟩
      exact ⟨k, vs, hk, hs, ⟨rfl, rfl⟩, rfl⟩
    · rintro ⟨_, _, hk, hs, ⟨rfl, rfl⟩, rfl⟩
      exact ⟨⟨hk, rfl⟩, hs⟩

/-- The draft is that document, for which there is room. -/
def Completes (room : ℕ) (x : Draft) (d : Document) : Prop := x.complete room = .ok d

lemma Completes.unique {x : Draft} {d e : Document} (hd : x.Completes room d)
    (he : x.Completes room e) : d = e :=
  Except.ok.inj (hd.symm.trans he)

lemma completeItems_iff {xs : List Draft} {ds : List Document} :
    completeItems room xs = .ok ds ↔ List.Forall₂ (Completes room) xs ds := by
  induction xs generalizing ds with
  | nil => simp [completeItems, eq_comm]
  | cons x xs ih =>
    simp only [completeItems, Except.bind_eq_ok, ih, pure, Except.pure, Except.ok.injEq]
    constructor
    · rintro ⟨d, hd, ds, hds, rfl⟩
      exact .cons hd hds
    · rintro (_ | ⟨hd, hds⟩)
      exact ⟨_, hd, _, hds, rfl⟩

lemma completeMembers_iff {xs : List (Name × Draft)} {ms : List (String × Document)} :
    completeMembers room xs = .ok ms ↔
      ∃ vs, named xs = Record.keyed vs ∧ Stand (Completes room) vs ms := by
  induction xs generalizing ms with
  | nil =>
    constructor
    · rintro ⟨⟩
      exact ⟨[], rfl, .nil⟩
    · rintro ⟨vs, hvs, hms⟩
      obtain rfl : vs = [] := List.map_eq_nil_iff.mp hvs.symm
      cases hms
      rfl
  | cons x xs ih =>
    obtain ⟨name, x⟩ := x
    simp only [completeMembers, Except.bind_eq_ok, ih, pure, Except.pure, Except.ok.injEq,
      named_cons_eq_keyed]
    constructor
    · rintro ⟨k, hk, d, hd, ms, ⟨vs, hvs, hms⟩, rfl⟩
      exact ⟨_, ⟨k, vs, hk, hvs, rfl⟩, .cons ⟨rfl, hd⟩ hms⟩
    · rintro ⟨_, ⟨k, vs, hk, hvs, rfl⟩, hms⟩
      obtain _ | @⟨_, m, _, ms, ⟨hkm, hd⟩, hms⟩ := hms
      exact ⟨k, hk, m.2, hd, ms, ⟨vs, hvs, hms⟩, by rw [show k = m.1 from hkm]⟩

@[simp] lemma completes_null_left {d : Document} : Completes room .null d ↔ d = .null := by
  simp [Completes, complete, eq_comm]

@[simp] lemma completes_bool_left {b : Bool} {d : Document} :
    Completes room (.bool b) d ↔ d = .bool b := by
  simp [Completes, complete, eq_comm]

@[simp] lemma completes_number_left {v : Except Fault Number} {d : Document} :
    Completes room (.number v) d ↔ ∃ n, v = .ok n ∧ d = .number n := by
  simp [Completes, complete, eq_comm]

@[simp] lemma completes_string_left {v : Except Fault String} {d : Document} :
    Completes room (.string v) d ↔ ∃ s, v = .ok s ∧ d = .string s := by
  simp [Completes, complete, eq_comm]

@[simp] lemma completes_broken_left {head : Option Char} {why : Break} {d : Document} :
    ¬ Completes room (.broken head why) d := by
  simp [Completes, complete]

lemma completes_array_left {after : List Char} {xs : List Draft} {close : Option Break}
    {d : Document} :
    Completes room (.array after xs close) d ↔ ∃ i ds, room = i + 1 ∧ close = none ∧
      List.Forall₂ (Completes i) xs ds ∧ d = .array ds := by
  cases room with
  | zero => simp [Completes, complete]
  | succ i =>
    simp only [Completes, complete, Except.bind_eq_ok, completeItems_iff, Nat.add_right_cancel_iff]
    cases close <;> simp [eq_comm]

lemma completes_object_left {after : List Char} {xs : List (Name × Draft)} {close : Option Break}
    {d : Document} :
    Completes room (.object after xs close) d ↔ ∃ i vs ms, room = i + 1 ∧ close = none ∧
      named xs = Record.keyed vs ∧ Stand (Completes i) vs ms ∧ d = .object ms := by
  cases room with
  | zero => simp [Completes, complete]
  | succ i =>
    simp only [Completes, complete, Except.bind_eq_ok, completeMembers_iff,
      Nat.add_right_cancel_iff]
    cases close with
    | some b => simp
    | none =>
      constructor
      · rintro ⟨ms, ⟨vs, hvs, hms⟩, ⟨⟩⟩
        exact ⟨i, vs, ms, rfl, rfl, hvs, hms, rfl⟩
      · rintro ⟨_, vs, ms, rfl, -, hvs, hms, rfl⟩
        exact ⟨ms, ⟨vs, hvs, hms⟩, rfl⟩

@[simp] lemma completes_string_iff {x : Draft} {s : String} :
    x.Completes room (.string s) ↔ x = .string (.ok s) := by
  cases x <;> simp [completes_array_left, completes_object_left]

@[simp] lemma completes_number_iff {x : Draft} {n : Number} :
    x.Completes room (.number n) ↔ x = .number (.ok n) := by
  cases x <;> simp [completes_array_left, completes_object_left]

@[simp] lemma completes_null_iff {x : Draft} : x.Completes room .null ↔ x = .null := by
  cases x <;> simp [completes_array_left, completes_object_left]

lemma completes_array_iff {x : Draft} {ds : List Document} :
    x.Completes room (.array ds) ↔ ∃ i after xs, room = i + 1 ∧ x = .array after xs none ∧
      List.Forall₂ (Completes i) xs ds := by
  cases x <;> simp [completes_array_left, completes_object_left, and_left_comm, and_assoc]

lemma completes_object_iff {x : Draft} {ms : List (String × Document)} :
    x.Completes room (.object ms) ↔ ∃ i after xs vs, room = i + 1 ∧ x = .object after xs none ∧
      named xs = Record.keyed vs ∧ Stand (Completes i) vs ms := by
  constructor
  · cases x with
    | object after xs close =>
      rw [completes_object_left]
      rintro ⟨i, vs, _, rfl, rfl, hvs, hms, ⟨⟩⟩
      exact ⟨i, after, xs, vs, rfl, rfl, hvs, hms⟩
    | _ => simp [completes_array_left]
  · rintro ⟨i, after, xs, vs, rfl, rfl, hvs, hms⟩
    exact completes_object_left.mpr ⟨i, vs, ms, rfl, rfl, hvs, hms, rfl⟩

/-! ### Documents as drafts -/

lemma ofItems_eq_map (ds : List Document) : ofItems ds = ds.map ofDocument := by
  induction ds with
  | nil => rfl
  | cons d ds ih => rw [ofItems, ih, List.map_cons]

lemma named_ofMembers (ms : List (String × Document)) :
    named (ofMembers ms) = Record.keyed (ms.map fun m => (m.1, ofDocument m.2)) := by
  induction ms with
  | nil => rfl
  | cons m ms ih =>
    rw [ofMembers, List.map_cons, named_cons_eq_keyed]
    exact ⟨m.1, _, rfl, ih, rfl⟩

mutual

lemma shows_ofDocument : ∀ d : Document, Shows (ofDocument d) d
  | .null => .null
  | .bool b => .bool b
  | .number n => .number n
  | .string s => .string s
  | .array ds => .array (shows_ofItems ds)
  | .object ms => .object (shows_ofMembers ms)

lemma shows_ofItems : ∀ ds : List Document, ShowsItems (ofItems ds) ds
  | [] => .nil
  | d :: ds => .cons (shows_ofDocument d) (shows_ofItems ds)

lemma shows_ofMembers : ∀ ms : List (String × Document), ShowsMembers (ofMembers ms) ms
  | [] => .nil
  | (_, d) :: ms => .cons rfl (shows_ofDocument d) (shows_ofMembers ms)

end

lemma completes_ofDocument {d : Document} (h : d.depth ≤ room) : (ofDocument d).Completes room d :=
  complete_shows (shows_ofDocument d) h

mutual

/-- There is nothing in a document that cannot be skipped. -/
lemma skipFault_ofDocument : ∀ d : Document, (ofDocument d).skipFault = none
  | .null | .bool _ | .number _ | .string _ => rfl
  | .array ds => by simp [ofDocument, skipFault, itemsFault_ofItems ds]
  | .object ms => by simp [ofDocument, skipFault, membersFault_ofMembers ms]

lemma itemsFault_ofItems : ∀ ds : List Document, itemsFault (ofItems ds) = none
  | [] => rfl
  | d :: ds => by simp [ofItems, itemsFault, skipFault_ofDocument d, itemsFault_ofItems ds]

lemma membersFault_ofMembers : ∀ ms : List (String × Document), membersFault (ofMembers ms) = none
  | [] => rfl
  | (_, d) :: ms => by
    simp [ofMembers, membersFault, Name.ofString, skipFault_ofDocument d, membersFault_ofMembers ms]

end

/-! ### Tagged objects -/

lemma asTag_iff {ws : List (Variant α)} {t : Draft} {w : Variant α} :
    t.asTag ws = .ok w ↔ ∃ s, t = .string (.ok s) ∧ Document.asTag ws (.string s) = .ok w := by
  cases t <;> simp [asTag, Document.asTag]

/-- Looking for the tag among drafts is completing them and looking for it then. -/
lemma splitTag_iff {ws : List (Variant α)} {v : Option (Variant α)} {xs : List (Name × Draft)}
    {w : Option (Variant α)} {others : List (String × Document)} :
    splitTag room ws v xs = .ok (w, others) ↔ ∃ ms, completeMembers room xs = .ok ms ∧
      (Document.object ms).Spelled ∧ Document.splitTag ws v ms = .ok (w, others) := by
  induction xs generalizing v w others with
  | nil => simp [splitTag, completeMembers, Document.Spelled, Document.splitTag]
  | cons x xs ih =>
    obtain ⟨name, x⟩ := x
    simp only [splitTag, completeMembers, Except.bind_eq_ok, Decoded.ofFault_eq_ok, pure,
      Except.pure, Except.ok.injEq]
    constructor
    · rintro ⟨k, hk, h⟩
      split at h
      · next htag =>
        cases v with
        | some _ => cases h
        | none =>
          obtain ⟨y, hy, hrest⟩ := Except.bind_eq_ok.mp h
          obtain ⟨s, rfl, hs⟩ := asTag_iff.mp hy
          obtain ⟨ms, hms, hspell, hrest⟩ := ih.mp hrest
          refine ⟨(k, .string s) :: ms, ⟨k, hk, _, by simp [complete], ms, hms, rfl⟩,
            Document.spelled_cons.mpr ⟨fun _ => ⟨s, rfl⟩, hspell⟩, ?_⟩
          simp only [Document.splitTag, htag, if_true, Except.bind_eq_ok]
          exact ⟨y, hs, hrest⟩
      · next htag =>
        simp only [Except.bind_eq_ok, Decoded.ofFault_eq_ok, Prod.exists, Except.ok.injEq,
          Prod.mk.injEq] at h
        obtain ⟨d, hd, w, others, h, rfl, rfl⟩ := h
        obtain ⟨ms, hms, hspell, h⟩ := ih.mp h
        refine ⟨(k, d) :: ms, ⟨k, hk, d, hd, ms, hms, rfl⟩,
          Document.spelled_cons.mpr ⟨fun heq => absurd heq htag, hspell⟩, ?_⟩
        simp only [Document.splitTag, htag, if_false, Except.bind_eq_ok, Prod.exists]
        exact ⟨w, others, h, rfl⟩
    · rintro ⟨_, ⟨k, hk, d, hd, ms, hms, rfl⟩, hspell, h⟩
      obtain ⟨hstring, hothers⟩ := Document.spelled_cons.mp hspell
      refine ⟨k, hk, ?_⟩
      by_cases htag : k = tagName
      · simp only [Document.splitTag, htag, if_true] at h ⊢
        cases v with
        | some _ => cases h
        | none =>
          obtain ⟨y, hy, hrest⟩ := Except.bind_eq_ok.mp h
          obtain ⟨s, rfl⟩ := hstring htag
          obtain rfl := completes_string_iff.mp hd
          exact Except.bind_eq_ok.mpr
            ⟨y, asTag_iff.mpr ⟨s, rfl, hy⟩, ih.mpr ⟨ms, hms, hothers, hrest⟩⟩
      · simp only [Document.splitTag, htag, if_false, Except.bind_eq_ok, Prod.exists, pure,
          Except.pure, Except.ok.injEq, Prod.mk.injEq, Decoded.ofFault_eq_ok] at h ⊢
        obtain ⟨w, others, h, rfl, rfl⟩ := h
        exact ⟨d, hd, w, others, ih.mpr ⟨ms, hms, hothers, h⟩, rfl, rfl⟩

/-- A tagged object is read from a draft as from its document. -/
lemma asTagged_iff {owner : String} {ws : List (Variant α)} {x : Draft} {a : α} :
    x.asTagged room owner ws = .ok a ↔
      ∃ d, x.Completes room d ∧ d.Spelled ∧ d.asTagged owner ws = .ok a := by
  cases x with
  | object after xs close =>
    simp only [asTagged, enter_eq_ok, Except.bind_eq_ok, Prod.exists, splitTag_iff]
    constructor
    · rintro ⟨i, rfl, w, others, ⟨ms, hms, hspell, h⟩, ha⟩
      cases close with
      | some b => cases ha
      | none =>
        refine ⟨.object ms, ?_, hspell, ?_⟩
        · simp [Completes, complete, hms, bind, Except.bind]
        · cases w with
          | none => cases ha
          | some w => exact Except.bind_eq_ok.mpr ⟨_, h, ha⟩
    · rintro ⟨d, hd, hspell, ha⟩
      obtain ⟨i, vs, ms, rfl, rfl, hvs, hms, rfl⟩ := completes_object_left.mp hd
      obtain ⟨⟨w, others⟩, h, ha⟩ := Except.bind_eq_ok.mp ha
      refine ⟨i, rfl, w, others, ⟨ms, completeMembers_iff.mpr ⟨vs, hvs, hms⟩, hspell, h⟩, ?_⟩
      cases w with
      | none => cases ha
      | some w => exact ha
  | array after xs close =>
    cases xs with
    | nil => cases close <;> simp [asTagged, completes_array_left, stop, Document.asTagged]
    | cons t xs =>
      simp only [asTagged, enter_eq_ok, Except.bind_eq_ok, Decoded.ofFault_eq_ok, asTag_iff,
        completeItems_iff]
      constructor
      · rintro ⟨i, rfl, w, ⟨s, rfl, hw⟩, ds, hds, ha⟩
        cases close with
        | some b => cases ha
        | none =>
          refine ⟨.array (.string s :: ds), ?_, ⟨s, rfl⟩, Except.bind_eq_ok.mpr ⟨w, hw, ha⟩⟩
          exact completes_array_left.mpr ⟨i, _, rfl, rfl, .cons (by simp) hds, rfl⟩
      · rintro ⟨d, hd, hspell, ha⟩
        obtain ⟨i, _, rfl, rfl, hds, rfl⟩ := completes_array_left.mp hd
        obtain _ | ⟨ht, hds⟩ := hds
        obtain ⟨s, rfl⟩ := hspell
        obtain rfl := completes_string_iff.mp ht
        obtain ⟨w, hw, ha⟩ := Except.bind_eq_ok.mp ha
        exact ⟨i, rfl, w, ⟨s, rfl, hw⟩, _, hds, ha⟩
  | _ => simp [asTagged, Document.asTagged]

end Draft

end PacketSections.Json
