import Mathlib
import PacketSections.Proofs.Chains
import PacketSections.Proofs.Encoding

/-!
What readers can return.

A property of all values that a record makes follows from properties of the values of its fields,
defaults included, whether the parts come by name or in a list. For a part of a parser the property
is that its written form keeps to a number of levels and that its spans are ordered.
-/

namespace PacketSections.Json

variable {σ α β : Type}

@[simp] lemma Decoded.ofFault_eq_ok {x : Except Fault α} {a : α} :
    Decoded.ofFault x = .ok a ↔ x = .ok a := by
  cases x <;> simp [Decoded.ofFault]

@[simp] lemma Decoded.fail_ne_ok {m : Mismatch} {a : α} : ¬ Decoded.fail m = .ok a := nofun

/-- Of the sources in `S`, the reader returns values in `Y` only. -/
def Yields (decode : σ → Decoded α) (S : σ → Prop) (Y : α → Prop) : Prop :=
  ∀ x a, S x → decode x = .ok a → Y a

lemma yields_true (decode : σ → Decoded α) (S : σ → Prop) : Yields decode S fun _ => True :=
  fun _ _ _ _ => trivial

namespace Record

/-- From parts in `S`, named or listed, the record makes values in `Y` only. -/
structure Makes (r : Record σ α) (S : σ → Prop) (Y : α → Prop) : Prop where
  members : ∃ I : r.Slots → Prop, I r.empty ∧
    (∀ k v s t, S v → I s → r.put k v s = some (.ok t) → I t) ∧
    ∀ s a, I s → r.finish s = .ok a → Y a
  items : ∀ short stop xs a rest, (∀ x ∈ xs, S x) → r.take short stop xs = .ok (a, rest) →
    Y a ∧ ∀ x ∈ rest, S x

namespace Makes

variable {S : σ → Prop}

lemma of {Y : α → Prop} {a : α} (h : Y a) : (Record.of a).Makes S Y where
  members := ⟨fun _ => True, trivial, fun _ _ _ _ _ _ _ => trivial, by
    rintro s b - ⟨⟩
    exact h⟩
  items := by
    rintro short stop xs b rest hxs ⟨⟩
    exact ⟨h, hxs⟩

/-- One more field, whose values are in `A`. -/
lemma field {r : Record σ (α → β)} {f : Field σ α} {A : α → Prop} {Y : β → Prop}
    (h : r.Makes S fun g => ∀ a, A a → Y (g a)) (hf : Yields f.decode S A)
    (ha : ∀ a ∈ f.absent, A a) : (r.field f).Makes S Y where
  members := by
    -- what has been seen of the field is in `A`, and the other slots are as before
    obtain ⟨I, hempty, hput, hfin⟩ := h.members
    refine ⟨fun s => I s.1 ∧ ∀ a ∈ s.2, A a, ⟨hempty, by simp [Record.field]⟩, ?_, ?_⟩
    · rintro k v ⟨s, o⟩ ⟨t, p⟩ hv ⟨hs, ho⟩ hk
      simp only [Record.field] at hk
      split at hk
      · cases o with
        | some _ => simp at hk
        | none =>
          simp only [Option.some.injEq, Except.map_eq_ok, Prod.mk.injEq] at hk
          obtain ⟨a, hva, rfl, rfl⟩ := hk
          exact ⟨hs, by simpa using hf v a hv hva⟩
      · simp only [Option.map_eq_some_iff, Except.map_eq_ok, Prod.mk.injEq] at hk
        obtain ⟨_, hk, t, rfl, rfl, rfl⟩ := hk
        exact ⟨hput k v s t hv hs hk, ho⟩
    · rintro ⟨s, o⟩ b ⟨hs, ho⟩ hb
      simp only [Record.field, Except.bind_eq_ok] at hb
      obtain ⟨g, hg, hb⟩ := hb
      split at hb
      · next a hor =>
        cases hb
        refine hfin s g hs hg a ?_
        rcases Option.or_eq_some_iff.1 hor with hoa | ⟨-, haa⟩
        · exact ho a hoa
        · exact ha a haa
      · simp at hb
  items := by
    intro short stop xs b rest hxs hb
    simp only [Record.field, Except.bind_eq_ok, Prod.exists] at hb
    obtain ⟨g, rest', hg, hb⟩ := hb
    obtain ⟨hY, hrest⟩ := h.items short stop xs g rest' hxs hg
    -- the next item is the field's; without one there is the default, or none
    cases rest' with
    | cons v tail =>
      simp only [Except.map_eq_ok, Prod.mk.injEq] at hb
      obtain ⟨a, hva, rfl, rfl⟩ := hb
      exact ⟨hY a (hf v a (hrest v (by simp)) hva), fun x hx => hrest x (by simp [hx])⟩
    | nil =>
      cases stop with
      | some e => cases hb
      | none =>
        cases habs : f.absent with
        | none => simp [habs] at hb
        | some a =>
          simp only [habs, Except.ok.injEq, Prod.mk.injEq] at hb
          obtain ⟨rfl, rfl⟩ := hb
          exact ⟨hY a (ha a habs), by simp⟩

variable {r : Record σ α} {Y : α → Prop} {a : α}

lemma ofMembers (h : r.Makes S Y) {skip : σ → Decoded Unit} {stop : Option Error}
    {ms : List (Decoded String × σ)} (hms : ∀ m ∈ ms, S m.2)
    (ha : r.ofMembers skip stop ms = .ok a) : Y a := by
  obtain ⟨I, hempty, hput, hfin⟩ := h.members
  -- the invariant of the slots holds after each member
  have hfill : ∀ s t, I s → r.fill skip s ms = .ok t → I t := by
    clear ha
    induction ms with
    | nil => rintro s t hs ⟨⟩; exact hs
    | cons m ms ih =>
      obtain ⟨key, v⟩ := m
      intro s t hs ht
      simp only [fill, Except.bind_eq_ok] at ht
      obtain ⟨k, -, ht⟩ := ht
      have ih := ih fun m hm => hms m (by simp [hm])
      split at ht
      · next next hnext =>
        simp only [Except.bind_eq_ok] at ht
        obtain ⟨s', rfl, ht⟩ := ht
        exact ih s' t (hput k v s s' (hms (key, v) (by simp)) hs hnext) ht
      · simp only [Except.bind_eq_ok] at ht
        obtain ⟨-, -, ht⟩ := ht
        exact ih s t hs ht
  simp only [Record.ofMembers, Except.bind_eq_ok] at ha
  obtain ⟨s, hs, ha⟩ := ha
  cases stop with
  | some e => cases ha
  | none => exact hfin s a (hfill _ s hempty hs) ha

lemma ofItems (h : r.Makes S Y) {shape : String} {stop : Option Error} {xs rest : List σ}
    (hxs : ∀ x ∈ xs, S x) (ha : r.ofItems shape stop xs = .ok (a, rest)) : Y a :=
  (h.items _ stop xs a rest hxs ha).1

end Makes

end Record

/-- From parts in `S`, the variant makes values in `Y` only. -/
structure Variant.Makes (v : Variant α) (S : Document → Prop) (Y : α → Prop) : Prop where
  members : ∀ ms a, (∀ m ∈ ms, S m.2) → v.ofMembers ms = .ok a → Y a
  items : ∀ ds a, (∀ d ∈ ds, S d) → v.ofItems ds = .ok a → Y a

lemma Variant.makes_bare {S : Document → Prop} {Y : α → Prop} {a : α} (tag : String) (h : Y a) :
    (bare tag a).Makes S Y where
  members := by
    rintro ms b - ⟨⟩
    exact h
  items := by
    intro ds b _ hb
    simp only [bare] at hb
    split at hb
    · cases hb; exact h
    · cases hb

lemma Variant.forall_named {S : Document → Prop} {ms : List (String × Document)}
    (h : ∀ m ∈ ms, S m.2) : ∀ m ∈ named ms, S m.2 := by
  simp only [named, List.forall_mem_map]
  exact h

lemma Variant.makes_carrying {S : Document → Prop} {Y : α → Prop} {r : Record Document α}
    (tag label : String) (h : r.Makes S Y) : (carrying tag label r).Makes S Y where
  members := by
    intro ms a hms ha
    simp only [carrying] at ha
    exact h.ofMembers (forall_named hms) ha
  items := by
    intro ds b hds hb
    simp only [carrying, Except.bind_eq_ok, Prod.exists] at hb
    obtain ⟨a, rest, ha, hb⟩ := hb
    split at hb
    · cases hb; exact h.ofItems hds ha
    · cases hb

lemma Variant.mem_of_find {vs : List (Variant α)} {tag : String} {v : Variant α}
    (h : find vs tag = .ok v) : v ∈ vs := by
  unfold find at h
  split at h
  · next w hw => cases h; exact List.mem_of_find?_eq_some hw
  · cases h

lemma Variant.mem_of_nth {vs : List (Variant α)} {n : UInt64} {v : Variant α}
    (h : nth vs n = .ok v) : v ∈ vs := by
  unfold nth at h
  split at h
  · next w hw => cases h; exact List.mem_of_getElem? hw
  · cases h

/-- The document has at most `k` levels. -/
def Document.Within (k : ℕ) (d : Document) : Prop := d.depth ≤ k

/-- The written form has at most `k` levels, and the spans are ordered. -/
structure Kept (encode : α → Document) (f : α → List Span) (k : ℕ) (a : α) : Prop where
  within : (encode a).Within k
  ordered : AllOrdered (f a)

namespace Document

lemma within_array {k : ℕ} {ds : List Document} :
    (array ds).Within k ↔ ∃ j, k = j + 1 ∧ ∀ d ∈ ds, d.Within j := by
  have hitems (j : ℕ) : itemsDepth ds ≤ j ↔ ∀ d ∈ ds, d.Within j := by
    induction ds with
    | nil => simp [itemsDepth]
    | cons d ds ih => simp [itemsDepth, ih, Within]
  cases k with
  | zero => simp [Within, depth]
  | succ j => simp [Within, depth, hitems]

lemma within_object {k : ℕ} {ms : List (String × Document)} :
    (object ms).Within k ↔ ∃ j, k = j + 1 ∧ ∀ m ∈ ms, m.2.Within j := by
  have hmembers (j : ℕ) : membersDepth ms ≤ j ↔ ∀ m ∈ ms, m.2.Within j := by
    induction ms with
    | nil => simp [membersDepth]
    | cons m ms ih =>
      obtain ⟨k, d⟩ := m
      simp only [membersDepth, max_le_iff, ih, List.forall_mem_cons, Within]
  cases k with
  | zero => simp [Within, depth]
  | succ j => simp [Within, depth, hmembers]

variable {k : ℕ} {Y : α → Prop}

lemma yields_asOption {decode : Document → Decoded α} {S : Document → Prop}
    (h : Yields decode S Y) : Yields (asOption decode) S fun o => ∀ a ∈ o, Y a := by
  intro x o hx ho a ha
  cases ha
  cases x with
  | null => cases ho
  | _ =>
    simp only [asOption, Except.map_eq_ok, Option.some.injEq, exists_eq_right] at ho
    exact h _ a hx ho

lemma yields_asList {decode : Document → Decoded α} {encode : α → Document} {f : α → List Span}
    (h : ∀ j, k = j + 1 → Yields decode (Within j) (Kept encode f j)) :
    Yields (asList decode) (Within k)
      (Kept (fun as => .array (as.map encode)) (fun as => as.flatMap f) k) := by
  intro x as hx has
  cases x with
  | array ds =>
    obtain ⟨j, rfl, hds⟩ := within_array.1 hx
    have hkept : ∀ a ∈ as, Kept encode f j a := by
      intro a ha
      obtain ⟨d, hd, hda⟩ := Except.mem_of_mapM has ha
      exact h j rfl d a (hds d hd) hda
    refine ⟨within_array.2 ⟨j, rfl, ?_⟩, by simpa using fun a ha => (hkept a ha).ordered⟩
    simpa using fun a ha => (hkept a ha).within
  | _ => simp [asList] at has

lemma yields_asRecord {r : Record Document α} (name : String)
    (h : ∀ j, k = j + 1 → r.Makes (Within j) Y) : Yields (asRecord name r) (Within k) Y := by
  intro x a hx ha
  cases x with
  | array ds =>
    obtain ⟨j, rfl, hds⟩ := within_array.1 hx
    simp only [asRecord, Except.bind_eq_ok, Prod.exists] at ha
    obtain ⟨b, rest, hb, ha⟩ := ha
    split at ha
    · cases ha; exact (h j rfl).ofItems hds hb
    · cases ha
  | object ms =>
    obtain ⟨j, rfl, hms⟩ := within_object.1 hx
    rw [asRecord] at ha
    exact (h j rfl).ofMembers (Variant.forall_named hms) ha
  | _ => simp [asRecord] at ha

lemma mem_of_asTag {vs : List (Variant α)} {d : Document} {v : Variant α}
    (h : asTag vs d = .ok v) : v ∈ vs := by
  unfold asTag at h
  split at h
  · exact Variant.mem_of_find h
  · exact Variant.mem_of_nth h
  · cases h

/-- Splitting off the tag picks one of the variants and leaves members that were there. -/
lemma splitTag_mem {vs : List (Variant α)} {v w : Option (Variant α)}
    {ms others : List (String × Document)} (h : splitTag vs v ms = .ok (w, others))
    (hv : ∀ x ∈ v, x ∈ vs) : (∀ x ∈ w, x ∈ vs) ∧ ∀ m ∈ others, m ∈ ms := by
  induction ms generalizing v w others with
  | nil => cases h; exact ⟨hv, by simp⟩
  | cons m ms ih =>
    obtain ⟨k, d⟩ := m
    simp only [splitTag] at h
    split at h
    · cases v with
      | some x => cases h
      | none =>
        simp only [Except.bind_eq_ok] at h
        obtain ⟨x, hx, h⟩ := h
        obtain ⟨hw, hothers⟩ := ih h (by simpa using mem_of_asTag hx)
        exact ⟨hw, fun m hm => List.mem_cons_of_mem _ (hothers m hm)⟩
    · simp only [Except.bind_eq_ok, Prod.exists, pure, Except.pure, Except.ok.injEq,
        Prod.mk.injEq] at h
      obtain ⟨w, rest, h, rfl, rfl⟩ := h
      obtain ⟨hw, hrest⟩ := ih h hv
      exact ⟨hw, List.forall_mem_cons.2
        ⟨List.mem_cons_self, fun m hm => List.mem_cons_of_mem _ (hrest m hm)⟩⟩

lemma ofTagged_mem {vs : List (Variant α)} {ms : List (String × Document)} {S : Document → Prop}
    (hvs : ∀ v ∈ vs, v.Makes S Y) (hms : ∀ m ∈ ms, S m.2) {a : α} (ha : ofTagged vs ms = .ok a) :
    Y a := by
  simp only [ofTagged, Except.bind_eq_ok, Prod.exists] at ha
  obtain ⟨w, others, hw, ha⟩ := ha
  obtain ⟨hmem, hothers⟩ := splitTag_mem hw (by simp)
  cases w with
  | none => cases ha
  | some v => exact (hvs v (hmem v rfl)).members others a (fun m hm => hms m (hothers m hm)) ha

lemma yields_asTagged {vs : List (Variant α)} (owner : String)
    (h : ∀ j, k = j + 1 → ∀ v ∈ vs, v.Makes (Within j) Y) :
    Yields (asTagged owner vs) (Within k) Y := by
  intro x a hx ha
  unfold asTagged at ha
  split at ha
  · next ms =>
    obtain ⟨j, rfl, hms⟩ := within_object.1 hx
    exact ofTagged_mem (h j rfl) hms ha
  · cases ha
  · next d ds =>
    obtain ⟨j, rfl, hds⟩ := within_array.1 hx
    simp only [Except.bind_eq_ok] at ha
    obtain ⟨v, hv, ha⟩ := ha
    exact (h j rfl v (mem_of_asTag hv)).items ds a (fun e he => hds e (by simp [he])) ha
  · cases ha

end Document

namespace Draft

mutual

/-- A completed draft keeps to the room there was. -/
lemma within_of_complete : ∀ {room : ℕ} {x : Draft} {d : Document}, x.complete room = .ok d →
    d.Within room
  | _, .null, _, h => by simp only [complete, Except.ok.injEq] at h; subst h; exact Nat.zero_le _
  | _, .bool b, _, h => by simp only [complete, Except.ok.injEq] at h; subst h; exact Nat.zero_le _
  | _, .number v, _, h => by
    simp only [complete, Except.map_eq_ok] at h
    obtain ⟨n, -, rfl⟩ := h
    exact Nat.zero_le _
  | _, .string v, _, h => by
    simp only [complete, Except.map_eq_ok] at h
    obtain ⟨n, -, rfl⟩ := h
    exact Nat.zero_le _
  | 0, .array _ _ _, _, h => by simp [complete] at h
  | 0, .object _ _ _, _, h => by simp [complete] at h
  | room + 1, .array _ xs close, d, h => by
    simp only [complete, Except.bind_eq_ok] at h
    obtain ⟨ds, hds, h⟩ := h
    cases close with
    | some b => cases h
    | none =>
      cases h
      exact Document.within_array.2 ⟨room, rfl, within_of_completeItems hds⟩
  | room + 1, .object _ xs close, d, h => by
    simp only [complete, Except.bind_eq_ok] at h
    obtain ⟨ms, hms, h⟩ := h
    cases close with
    | some b => cases h
    | none =>
      cases h
      exact Document.within_object.2 ⟨room, rfl, within_of_completeMembers hms⟩
  | _, .broken _ _, _, h => by simp [complete] at h

lemma within_of_completeItems : ∀ {room : ℕ} {xs : List Draft} {ds : List Document},
    completeItems room xs = .ok ds → ∀ d ∈ ds, d.Within room
  | _, [], _, h => by cases h; simp
  | _, x :: xs, _, h => by
    simp only [completeItems, Except.bind_eq_ok, pure, Except.pure, Except.ok.injEq] at h
    obtain ⟨d, hd, ds, hds, rfl⟩ := h
    exact List.forall_mem_cons.2 ⟨within_of_complete hd, within_of_completeItems hds⟩

lemma within_of_completeMembers : ∀ {room : ℕ} {xs : List (Name × Draft)}
    {ms : List (String × Document)}, completeMembers room xs = .ok ms → ∀ m ∈ ms, m.2.Within room
  | _, [], _, h => by cases h; simp
  | _, (name, x) :: xs, _, h => by
    simp only [completeMembers, Except.bind_eq_ok, pure, Except.pure, Except.ok.injEq] at h
    obtain ⟨k, -, d, hd, ms, hms, rfl⟩ := h
    exact List.forall_mem_cons.2 ⟨within_of_complete hd, within_of_completeMembers hms⟩

end

@[simp] lemma reject_ne_ok {d : Draft} {want : Want} {a : α} : ¬ d.reject want = .ok a := by
  simp [reject]

@[simp] lemma enter_eq_ok {room : ℕ} {after : List Char} {inside : ℕ → Decoded α} {a : α} :
    enter room after inside = .ok a ↔ ∃ j, room = j + 1 ∧ inside j = .ok a := by
  cases room <;> simp [enter]

/-- Every draft. -/
def Any (_ : Draft) : Prop := True

variable {room : ℕ} {Y : α → Prop}

lemma yields_asOption {decode : Draft → Decoded α} (h : Yields decode Any Y) :
    Yields (asOption decode) Any fun o => ∀ a ∈ o, Y a := by
  intro x o hx ho a ha
  cases ha
  cases x with
  | null => cases ho
  | _ =>
    simp only [asOption, Except.map_eq_ok, Option.some.injEq, exists_eq_right] at ho
    exact h _ a trivial ho

/-- A list, or an object read as a list, that was closed has been read without a fault. -/
lemma eq_of_stop {close : Option Break} {b a : α}
    (h : (match stop close with
      | some e => .error e
      | none => .ok b : Decoded α) = .ok a) : b = a := by
  cases close with
  | some c => cases h
  | none => cases h; rfl

lemma yields_asList {decode : ℕ → Draft → Decoded α} {encode : α → Document} {f : α → List Span}
    (h : ∀ j, room = j + 1 → Yields (decode j) Any (Kept encode f j)) :
    Yields (asList room decode) Any
      (Kept (fun as => .array (as.map encode)) (fun as => as.flatMap f) room) := by
  intro x as _ has
  cases x with
  | array after xs close =>
    simp only [asList, enter_eq_ok, Except.bind_eq_ok] at has
    obtain ⟨j, rfl, bs, hbs, has⟩ := has
    obtain rfl := eq_of_stop has
    have hkept : ∀ a ∈ bs, Kept encode f j a := by
      intro a ha
      obtain ⟨x, -, hx⟩ := Except.mem_of_mapM hbs ha
      exact h j rfl x a trivial hx
    refine ⟨Document.within_array.2 ⟨j, rfl, ?_⟩, by simpa using fun a ha => (hkept a ha).ordered⟩
    simpa using fun a ha => (hkept a ha).within
  | _ => simp [asList] at has

lemma mem_of_asEntries {item : ℕ → Draft → Decoded α} {x : Draft} {es : List (String × α)}
    (h : asEntries room item x = .ok es) :
    ∃ j, room = j + 1 ∧ ∀ e ∈ es, ∃ y, item j y = .ok e.2 := by
  cases x with
  | object after xs close =>
    simp only [asEntries, enter_eq_ok, Except.bind_eq_ok] at h
    obtain ⟨j, rfl, bs, hbs, h⟩ := h
    obtain rfl := eq_of_stop h
    refine ⟨j, rfl, fun e he => ?_⟩
    obtain ⟨m, -, hm⟩ := Except.mem_of_mapM hbs he
    simp only [Except.bind_eq_ok, pure, Except.pure, Except.ok.injEq] at hm
    obtain ⟨k, -, a, ha, rfl⟩ := hm
    exact ⟨m.2, ha⟩
  | _ => simp [asEntries] at h

lemma yields_asRecord {r : ℕ → Record Draft α} (origin : Origin) (name : String)
    (h : ∀ j, room = j + 1 → (r j).Makes Any Y) :
    Yields (asRecord origin room name r) Any Y := by
  intro x a _ ha
  cases x with
  | array after xs close =>
    simp only [asRecord, enter_eq_ok, Except.bind_eq_ok, Prod.exists, pure, Except.pure,
      Except.ok.injEq] at ha
    obtain ⟨j, rfl, b, rest, hb, -, -, rfl⟩ := ha
    exact (h j rfl).ofItems (fun _ _ => trivial) hb
  | object after xs close =>
    simp only [asRecord, enter_eq_ok] at ha
    obtain ⟨j, rfl, ha⟩ := ha
    exact (h j rfl).ofMembers (fun _ _ => trivial) ha
  | _ => simp [asRecord] at ha

lemma mem_of_asTag {vs : List (Variant α)} {x : Draft} {v : Variant α}
    (h : asTag vs x = .ok v) : v ∈ vs := by
  cases x with
  | string s =>
    simp only [asTag, Except.bind_eq_ok] at h
    obtain ⟨t, -, h⟩ := h
    exact Variant.mem_of_find h
  | _ => simp [asTag] at h

lemma splitTag_mem {vs : List (Variant α)} {v w : Option (Variant α)} {xs : List (Name × Draft)}
    {others : List (String × Document)} (h : splitTag room vs v xs = .ok (w, others))
    (hv : ∀ x ∈ v, x ∈ vs) : (∀ x ∈ w, x ∈ vs) ∧ ∀ m ∈ others, m.2.Within room := by
  induction xs generalizing v w others with
  | nil => cases h; exact ⟨hv, by simp⟩
  | cons x xs ih =>
    obtain ⟨name, x⟩ := x
    simp only [splitTag, Except.bind_eq_ok] at h
    obtain ⟨k, -, h⟩ := h
    split at h
    · cases v with
      | some y => cases h
      | none =>
        simp only [Except.bind_eq_ok] at h
        obtain ⟨y, hy, h⟩ := h
        exact ih h (by simpa using mem_of_asTag hy)
    · simp only [Except.bind_eq_ok, Decoded.ofFault_eq_ok, Prod.exists, pure, Except.pure,
        Except.ok.injEq, Prod.mk.injEq] at h
      obtain ⟨d, hd, w, rest, h, rfl, rfl⟩ := h
      obtain ⟨hw, hrest⟩ := ih h hv
      exact ⟨hw, List.forall_mem_cons.2 ⟨within_of_complete hd, hrest⟩⟩

lemma yields_asTagged {vs : List (Variant α)} (owner : String)
    (h : ∀ j, room = j + 1 → ∀ v ∈ vs, v.Makes (Document.Within j) Y) :
    Yields (asTagged room owner vs) Any Y := by
  intro x a _ ha
  unfold asTagged at ha
  split at ha
  · next after xs close =>
    simp only [enter_eq_ok, Except.bind_eq_ok, Prod.exists] at ha
    obtain ⟨j, rfl, w, others, hw, ha⟩ := ha
    obtain ⟨hmem, hothers⟩ := splitTag_mem hw (by simp)
    split at ha
    · cases ha
    · next v _ => exact (h j rfl v (hmem v rfl)).members others a hothers ha
    · cases ha
  · next after close =>
    simp only [enter_eq_ok] at ha
    obtain ⟨j, rfl, ha⟩ := ha
    split at ha <;> cases ha
  · next after y ys close =>
    simp only [enter_eq_ok, Except.bind_eq_ok, Decoded.ofFault_eq_ok] at ha
    obtain ⟨j, rfl, v, hv, ds, hds, ha⟩ := ha
    split at ha
    · cases ha
    · exact (h j rfl v (mem_of_asTag hv)).items ds a (within_of_completeItems hds) ha
  · simp at ha

end Draft

end PacketSections.Json
