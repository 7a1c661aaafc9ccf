import Mathlib
import PacketSections.Proofs.Decoding

/-!
Records and tagged objects, read off their members.

A field takes the one member of its name, or its default where there is none, and has no use for the
others. So the members of a record can be told apart by their names: what is read depends on the
values that stand under each name and not on the order of the members.
-/

namespace PacketSections.Json

variable {σ τ α β ι : Type}

/-- The values of the members of that name. -/
def valuesOf (k : String) (xs : List (String × σ)) : List σ :=
  (xs.filter fun x => x.1 = k).map Prod.snd

/-- The members of other names. -/
def without (k : String) (xs : List (String × σ)) : List (String × σ) :=
  xs.filter fun x => x.1 ≠ k

@[simp] lemma valuesOf_nil (k : String) : valuesOf k ([] : List (String × σ)) = [] := rfl

@[simp] lemma without_nil (k : String) : without k ([] : List (String × σ)) = [] := rfl

lemma valuesOf_cons (k : String) (x : String × σ) (xs : List (String × σ)) :
    valuesOf k (x :: xs) = if x.1 = k then x.2 :: valuesOf k xs else valuesOf k xs := by
  by_cases h : x.1 = k <;> simp [valuesOf, h]

lemma without_cons (k : String) (x : String × σ) (xs : List (String × σ)) :
    without k (x :: xs) = if x.1 = k then without k xs else x :: without k xs := by
  by_cases h : x.1 = k <;> simp [without, h]

lemma valuesOf_append (k : String) (xs ys : List (String × σ)) :
    valuesOf k (xs ++ ys) = valuesOf k xs ++ valuesOf k ys := by
  simp [valuesOf]

lemma valuesOf_map (k : String) (g : σ → τ) (xs : List (String × σ)) :
    valuesOf k (xs.map fun x => (x.1, g x.2)) = (valuesOf k xs).map g := by
  simp [valuesOf, List.filter_map, Function.comp_def]

@[simp] lemma valuesOf_cons_self (k : String) (v : σ) (xs : List (String × σ)) :
    valuesOf k ((k, v) :: xs) = v :: valuesOf k xs := by
  simp [valuesOf_cons]

@[simp] lemma mem_without {k : String} {x : String × σ} {xs : List (String × σ)} :
    x ∈ without k xs ↔ x ∈ xs ∧ x.1 ≠ k := by
  simp [without]

lemma mem_valuesOf {k : String} {v : σ} {xs : List (String × σ)} :
    v ∈ valuesOf k xs ↔ (k, v) ∈ xs := by
  simp [valuesOf]

lemma valuesOf_without {k l : String} (h : k ≠ l) (xs : List (String × σ)) :
    valuesOf k (without l xs) = valuesOf k xs := by
  induction xs with
  | nil => rfl
  | cons x xs ih =>
    rw [without_cons, valuesOf_cons]
    split
    · next hl => rw [if_neg (fun hk => h (hk.symm.trans hl)), ih]
    · rw [valuesOf_cons, ih]

/-- Members of the same names have values of the same names. -/
lemma forall₂_valuesOf {R : σ → τ → Prop} {xs : List (String × σ)} {ys : List (String × τ)}
    (h : List.Forall₂ (fun x y => x.1 = y.1 ∧ R x.2 y.2) xs ys) (k : String) :
    List.Forall₂ R (valuesOf k xs) (valuesOf k ys) := by
  induction h with
  | nil => exact .nil
  | cons hxy _ ih =>
    obtain ⟨hk, hv⟩ := hxy
    rw [valuesOf_cons, valuesOf_cons, hk]
    split
    · exact .cons hv ih
    · exact ih

/-- What comes to stand in a place for one value: what was there before, or the one value that was
read into it. -/
def Taken (decode : σ → Decoded α) (vs : List σ) (o p : Option α) : Prop :=
  vs = [] ∧ p = o ∨ ∃ v a, o = none ∧ vs = [v] ∧ decode v = .ok a ∧ p = some a

/-- A further value is read into an empty place only, and has to be the last. -/
lemma taken_cons {decode : σ → Decoded α} {v : σ} {vs : List σ} {o p : Option α} :
    Taken decode (v :: vs) o p ↔ ∃ a, o = none ∧ decode v = .ok a ∧ Taken decode vs (some a) p := by
  simp [Taken, and_left_comm]

namespace Record

/-- Members are read only where all names can be read. -/
lemma exists_keyed_of_fill {r : Record σ α} {skip : σ → Decoded Unit} {s t : r.Slots}
    {ms : List (Decoded String × σ)} (h : r.fill skip s ms = .ok t) : ∃ xs, ms = keyed xs := by
  induction ms generalizing s with
  | nil => exact ⟨[], rfl⟩
  | cons m ms ih =>
    obtain ⟨key, v⟩ := m
    obtain ⟨k, rfl, hput⟩ := Except.bind_eq_ok.mp h
    have hrest : ∃ s', r.fill skip s' ms = .ok t := by
      split at hput
      · obtain ⟨s', -, hs'⟩ := Except.bind_eq_ok.mp hput
        exact ⟨s', hs'⟩
      · obtain ⟨_, -, hs⟩ := Except.bind_eq_ok.mp hput
        exact ⟨s, hs⟩
    obtain ⟨s', hs'⟩ := hrest
    obtain ⟨xs, rfl⟩ := ih hs'
    exact ⟨(k, v) :: xs, rfl⟩

/-- What a field makes of the values under its name. -/
def FieldTakes (f : Field σ α) (vs : List σ) (a : α) : Prop :=
  (∃ v, vs = [v] ∧ f.decode v = .ok a) ∨ vs = [] ∧ f.absent = some a

section slots

variable {r : Record σ (α → β)} {f : Field σ α} {skip : σ → Decoded Unit}

/-- The slots of the other fields, and that of the last one. -/
def slots (r : Record σ (α → β)) (f : Field σ α) (s : r.Slots) (o : Option α) :
    (r.field f).Slots :=
  (s, o)

lemma exists_slots (t : (r.field f).Slots) : ∃ s o, t = slots r f s o := ⟨t.1, t.2, rfl⟩

lemma slots_inj {s t : r.Slots} {o p : Option α} :
    slots r f s o = slots r f t p ↔ s = t ∧ o = p :=
  Prod.mk.injEq s o t p ▸ Iff.rfl

lemma empty_field : (r.field f).empty = slots r f r.empty none := rfl

lemma put_own (v : σ) (s : r.Slots) :
    (r.field f).put f.name v (slots r f s none) =
      some ((f.decode v).map fun a => slots r f s (some a)) := by
  simp [field, slots]

lemma put_twice (v : σ) (s : r.Slots) (a : α) :
    (r.field f).put f.name v (slots r f s (some a)) =
      some (.fail (.duplicateField f.name)) := by
  simp [field, slots]

lemma put_other {k : String} (hk : k ≠ f.name) (v : σ) (s : r.Slots) (o : Option α) :
    (r.field f).put k v (slots r f s o) =
      (r.put k v s).map fun d => d.map fun t => slots r f t o := by
  simp [field, slots, hk]

lemma finish_field (s : r.Slots) (o : Option α) :
    (r.field f).finish (slots r f s o) = r.finish s >>= fun g =>
      match o.or f.absent with
      | some a => .ok (g a)
      | none => .fail (.missingField f.name) :=
  rfl

/-- The slot of a field takes the value under its name, and the other slots see the rest. -/
lemma fill_field_iff {s t : r.Slots} {o p : Option α} {xs : List (String × σ)} :
    (r.field f).fill skip (slots r f s o) (keyed xs) = .ok (slots r f t p) ↔
      r.fill skip s (keyed (without f.name xs)) = .ok t ∧
        Taken f.decode (valuesOf f.name xs) o p := by
  induction xs generalizing s o with
  | nil => simp [keyed, fill, slots_inj, Taken, eq_comm]
  | cons x xs ih =>
    obtain ⟨k, v⟩ := x
    rw [fill_keyed_cons, valuesOf_cons, without_cons]
    by_cases hk : k = f.name
    · -- the member is the field's, whose slot may not have been filled before
      subst hk
      simp only [if_true, taken_cons]
      cases o with
      | some b => simp [put_twice]
      | none =>
        rw [put_own]
        simp only [Except.bind_eq_ok, Except.map_eq_ok, true_and]
        constructor
        · rintro ⟨_, ⟨a, ha, rfl⟩, h⟩
          obtain ⟨hr, hp⟩ := ih.mp h
          exact ⟨hr, a, ha, hp⟩
        · rintro ⟨hr, a, ha, hp⟩
          exact ⟨_, ⟨a, ha, rfl⟩, ih.mpr ⟨hr, hp⟩⟩
    · -- the member passes the field by
      rw [put_other hk, if_neg hk, if_neg hk, fill_keyed_cons]
      cases r.put k v s with
      | none =>
        simp only [Option.map_none, Except.bind_eq_ok, ih]
        rw [← exists_and_right]
        simp only [and_assoc]
      | some next =>
        simp only [Option.map_some, Except.bind_eq_ok, Except.map_eq_ok]
        constructor
        · rintro ⟨_, ⟨s', hs', rfl⟩, h⟩
          obtain ⟨hr, hp⟩ := ih.mp h
          exact ⟨⟨s', hs', hr⟩, hp⟩
        · rintro ⟨⟨s', hs', hr⟩, hp⟩
          exact ⟨_, ⟨s', hs', rfl⟩, ih.mpr ⟨hr, hp⟩⟩

/-- One more field takes the value under its name, and the others see the rest. -/
lemma ofMembers_field_iff {xs : List (String × σ)} {b : β} :
    (r.field f).ofMembers skip none (keyed xs) = .ok b ↔
      ∃ g a, r.ofMembers skip none (keyed (without f.name xs)) = .ok g ∧
        FieldTakes f (valuesOf f.name xs) a ∧ g a = b := by
  simp only [ofMembers, Except.bind_eq_ok, empty_field]
  constructor
  · rintro ⟨t, ht, hb⟩
    obtain ⟨t, p, rfl⟩ := exists_slots t
    obtain ⟨hr, hp⟩ := fill_field_iff.mp ht
    rw [finish_field, Except.bind_eq_ok] at hb
    obtain ⟨g, hg, hb⟩ := hb
    rcases hp with ⟨hnil, rfl⟩ | ⟨v, a, -, hv, ha, rfl⟩
    · cases habs : f.absent with
      | none => simp [habs] at hb
      | some a => exact ⟨g, a, ⟨t, hr, hg⟩, .inr ⟨hnil, habs⟩, by simpa [habs] using hb⟩
    · exact ⟨g, a, ⟨t, hr, hg⟩, .inl ⟨v, hv, ha⟩, by simpa using hb⟩
  · rintro ⟨g, a, ⟨t, hr, hg⟩, ⟨v, hv, ha⟩ | ⟨hnil, habs⟩, rfl⟩
    · refine ⟨slots r f t (some a), fill_field_iff.mpr ⟨hr, .inr ⟨v, a, rfl, hv, ha, rfl⟩⟩, ?_⟩
      simp [finish_field, hg, bind, Except.bind]
    · refine ⟨slots r f t none, fill_field_iff.mpr ⟨hr, .inl ⟨hnil, rfl⟩⟩, ?_⟩
      simp [finish_field, hg, habs, bind, Except.bind]

end slots

/-- A record without fields passes over all members. -/
lemma ofMembers_of_iff {a b : α} {skip : σ → Decoded Unit} {xs : List (String × σ)} :
    (Record.of a).ofMembers skip none (keyed xs) = .ok b ↔
      a = b ∧ ∀ x ∈ xs, skip x.2 = .ok () := by
  have hfill (s t : (Record.of a : Record σ α).Slots) :
      (Record.of a).fill skip s (keyed xs) = .ok t ↔ ∀ x ∈ xs, skip x.2 = .ok () := by
    induction xs with
    | nil => exact ⟨fun _ => by simp, fun _ => rfl⟩
    | cons x xs ih =>
      have hput : (Record.of a).put x.1 x.2 s = none := rfl
      rw [fill_keyed_cons, hput]
      simp only [Except.bind_eq_ok, ih, List.forall_mem_cons]
      constructor
      · rintro ⟨_, h, hs⟩
        exact ⟨h, hs⟩
      · rintro ⟨h, hs⟩
        exact ⟨_, h, hs⟩
  simp only [ofMembers, Except.bind_eq_ok, hfill]
  constructor
  · rintro ⟨_, hs, ⟨⟩⟩
    exact ⟨rfl, hs⟩
  · rintro ⟨rfl, hs⟩
    exact ⟨(), hs, rfl⟩

end Record

namespace Document

variable {vs : List (Variant α)}

/-- The tag takes the value under its name, and the other members stay as they are. -/
lemma splitTag_iff {v w : Option (Variant α)} {ms others : List (String × Document)} :
    splitTag vs v ms = .ok (w, others) ↔
      others = without tagName ms ∧ Taken (asTag vs) (valuesOf tagName ms) v w := by
  induction ms generalizing v w others with
  | nil => simp [splitTag, Taken, eq_comm, and_comm]
  | cons m ms ih =>
    obtain ⟨k, d⟩ := m
    rw [valuesOf_cons, without_cons]
    by_cases hk : k = tagName
    · simp only [hk, if_true, taken_cons]
      cases v with
      | some x => simp [splitTag]
      | none =>
        simp only [splitTag, if_true, Except.bind_eq_ok, ih]
        constructor
        · rintro ⟨x, hx, rfl, hw⟩
          exact ⟨rfl, x, trivial, hx, hw⟩
        · rintro ⟨rfl, x, -, hx, hw⟩
          exact ⟨x, hx, rfl, hw⟩
    · simp only [splitTag, hk, if_false, Except.bind_eq_ok, Prod.exists, ih, pure, Except.pure,
        Except.ok.injEq, Prod.mk.injEq]
      constructor
      · rintro ⟨_, _, ⟨rfl, hw⟩, rfl, rfl⟩
        exact ⟨rfl, hw⟩
      · rintro ⟨rfl, hw⟩
        exact ⟨w, _, ⟨rfl, hw⟩, rfl, rfl⟩

/-- The variant of the one tag reads the other members. -/
lemma ofTagged_iff {ms : List (String × Document)} {a : α} :
    ofTagged vs ms = .ok a ↔ ∃ d v, valuesOf tagName ms = [d] ∧ d.asTag vs = .ok v ∧
      v.ofMembers (without tagName ms) = .ok a := by
  simp only [ofTagged, Except.bind_eq_ok, Prod.exists, splitTag_iff]
  constructor
  · rintro ⟨w, _, ⟨rfl, ⟨-, rfl⟩ | ⟨d, v, -, hd, hv, rfl⟩⟩, ha⟩
    · simp at ha
    · exact ⟨d, v, hd, hv, ha⟩
  · rintro ⟨d, v, hd, hv, ha⟩
    exact ⟨some v, _, ⟨rfl, .inr ⟨d, v, rfl, hd, hv, rfl⟩⟩, ha⟩

end Document

end PacketSections.Json
