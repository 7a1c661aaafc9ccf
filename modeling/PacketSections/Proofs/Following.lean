import Mathlib
import PacketSections.Proofs.Members

/-!
Two readers in step.

One reader follows another if it accepts what stands for a source that the other accepts, and makes
the matching value of it. Records follow each other field by field: by name, where a value stands
for the one value of the same name, and by place.
-/

namespace PacketSections.Json

variable {σ τ α β γ δ ι : Type}

/-- What stands for a source that the first reader accepts is accepted by the second one. -/
def Carries (R : σ → τ → Prop) (decode : σ → Decoded α) (decode' : τ → Decoded β)
    (A : α → β → Prop) : Prop :=
  ∀ x y a, R x y → decode x = .ok a → ∃ b, decode' y = .ok b ∧ A a b

lemma Carries.of_eq {R : σ → τ → Prop} {decode : σ → Decoded α} {decode' : τ → Decoded α}
    (h : ∀ x y a, R x y → decode x = .ok a → decode' y = .ok a) : Carries R decode decode' Eq :=
  fun x y a hxy ha => ⟨a, h x y a hxy ha, rfl⟩

lemma Carries.ok {R : σ → τ → Prop} {decode : σ → Decoded α} {decode' : τ → Decoded α} {x : σ}
    {y : τ} {a : α} (h : Carries R decode decode' Eq) (hxy : R x y) (ha : decode x = .ok a) :
    decode' y = .ok a := by
  obtain ⟨_, hb, rfl⟩ := h x y a hxy ha
  exact hb

lemma Carries.map {R : σ → τ → Prop} {decode : σ → Decoded α} {decode' : τ → Decoded α}
    (h : Carries R decode decode' Eq) (f : α → β) :
    Carries R (fun x => (decode x).map f) (fun y => (decode' y).map f) Eq := by
  refine .of_eq fun x y b hxy hb => ?_
  obtain ⟨a, ha, rfl⟩ := Except.map_eq_ok.mp hb
  exact Except.map_eq_ok.mpr ⟨a, h.ok hxy ha, rfl⟩

lemma Carries.bind {R : σ → τ → Prop} {decode : σ → Decoded α} {decode' : τ → Decoded α}
    (h : Carries R decode decode' Eq) (f : α → Decoded β) :
    Carries R (fun x => decode x >>= f) (fun y => decode' y >>= f) Eq := by
  refine .of_eq fun x y b hxy hb => ?_
  obtain ⟨a, ha, hb⟩ := Except.bind_eq_ok.mp hb
  exact Except.bind_eq_ok.mpr ⟨a, h.ok hxy ha, hb⟩

lemma Carries.mapM {R : σ → τ → Prop} {decode : σ → Decoded α} {decode' : τ → Decoded α}
    (h : Carries R decode decode' Eq) {xs : List σ} {ys : List τ} {as : List α}
    (hxy : List.Forall₂ R xs ys) (ha : xs.mapM decode = .ok as) : ys.mapM decode' = .ok as := by
  induction hxy generalizing as with
  | nil => exact ha
  | cons hxy _ ih =>
    simp only [List.mapM_cons, Except.bind_eq_ok] at ha ⊢
    obtain ⟨a, ha, as, has, hmk⟩ := ha
    exact ⟨a, h.ok hxy ha, as, ih has, hmk⟩

/-! ### By name and by place -/

/-- None stands for none, and one for one. Of several values nothing is asked. -/
def Once (R : σ → τ → Prop) (vs : List σ) (ws : List τ) : Prop :=
  (vs = [] → ws = []) ∧ ∀ v, vs = [v] → ∃ w, ws = [w] ∧ R v w

lemma Once.of_eq {R : σ → σ → Prop} (hR : ∀ v, R v v) {vs ws : List σ} (h : vs = ws) :
    Once R vs ws := by
  subst h
  exact ⟨id, fun v hv => ⟨v, hv, hR v⟩⟩

lemma Once.of_forall₂ {R : σ → τ → Prop} {vs : List σ} {ws : List τ} (h : List.Forall₂ R vs ws) :
    Once R vs ws := by
  constructor
  · intro hnil
    rwa [hnil, List.forall₂_nil_left_iff] at h
  · intro v hv
    rwa [hv, List.forall₂_singleton_left_iff] at h

lemma Once.taken {R : σ → τ → Prop} {vs : List σ} {ws : List τ} {decode : σ → Decoded α}
    {decode' : τ → Decoded α} {o : Option α} (h : Once R vs ws) (hR : Carries R decode decode' Eq)
    (ho : Taken decode vs none o) : Taken decode' ws none o := by
  rcases ho with ⟨hnil, rfl⟩ | ⟨v, a, -, hv, ha, rfl⟩
  · exact .inl ⟨h.1 hnil, rfl⟩
  · obtain ⟨w, hw, hvw⟩ := h.2 v hv
    exact .inr ⟨w, a, rfl, hw, hR.ok hvw ha, rfl⟩

/-- Items stand for each other according to their places; further ones only need to be as many. -/
inductive Aligned (R : ι → σ → τ → Prop) : List ι → List σ → List τ → Prop
  | nil {is : List ι} : Aligned R is [] []
  | cons {i : ι} {is : List ι} {x : σ} {y : τ} {xs : List σ} {ys : List τ} (h : R i x y)
    (hs : Aligned R is xs ys) : Aligned R (i :: is) (x :: xs) (y :: ys)
  | rest {xs : List σ} {ys : List τ} (h : xs.length = ys.length) : Aligned R [] xs ys

lemma Aligned.of_forall₂ {R : ι → σ → τ → Prop} {xs : List σ} {ys : List τ}
    (h : List.Forall₂ (fun x y => ∀ i, R i x y) xs ys) (is : List ι) : Aligned R is xs ys := by
  induction h generalizing is with
  | nil => exact .nil
  | cons hxy hs ih =>
    cases is with
    | nil => exact .rest (by rw [List.length_cons, List.length_cons, hs.length_eq])
    | cons i is => exact .cons (hxy i) (ih is)

/-- One item is replaced by another of which that is asked in its place. -/
lemma Aligned.replace {R : ι → σ → σ → Prop} (hR : ∀ i x, R i x x) {is : List ι} {i : ι}
    {xs zs : List σ} {x y : σ} (hi : is[xs.length]? = some i) (hxy : R i x y) :
    Aligned R is (xs ++ x :: zs) (xs ++ y :: zs) := by
  induction xs generalizing is with
  | nil =>
    cases is with
    | nil => simp at hi
    | cons j is =>
      obtain rfl : j = i := by simpa using hi
      exact .cons hxy (.of_forall₂ (List.forall₂_same.mpr fun _ _ j => hR j _) is)
  | cons z xs ih =>
    cases is with
    | nil => simp at hi
    | cons j is => exact .cons (hR j z) (ih (by simpa using hi))

lemma Aligned.length_eq {R : ι → σ → τ → Prop} {is : List ι} {xs : List σ} {ys : List τ}
    (h : Aligned R is xs ys) : xs.length = ys.length := by
  induction h with
  | nil => rfl
  | cons _ _ ih => simp [ih]
  | rest h => exact h

namespace Record

/-- The records read fields of the same names in the same order and skip the other members, and `Y`
relates what they make of parts that stand for each other. -/
structure Follows (R : ι → σ → τ → Prop) (fields : List (String × ι)) (r : Record σ α)
    (r' : Record τ β) (Y : α → β → Prop) : Prop where
  members : ∀ (skip : σ → Decoded Unit) (skip' : τ → Decoded Unit) {xs ys a},
    (∀ f ∈ fields, Once (R f.2) (valuesOf f.1 xs) (valuesOf f.1 ys)) →
    (∀ y ∈ ys, y.1 ∉ fields.map Prod.fst → skip' y.2 = .ok ()) →
    r.ofMembers skip none (keyed xs) = .ok a →
    ∃ b, r'.ofMembers skip' none (keyed ys) = .ok b ∧ Y a b
  items : ∀ (short short' : ℕ → Error) (is : List ι) {xs ys a rest},
    Aligned R (fields.map Prod.snd ++ is) xs ys →
    r.take short none xs = .ok (a, rest) →
    ∃ b rest', r'.take short' none ys = .ok (b, rest') ∧ Y a b ∧ Aligned R is rest rest'
  skips : ∀ {skip xs a}, r.ofMembers skip none (keyed xs) = .ok a →
    ∀ x ∈ xs, x.1 ∉ fields.map Prod.fst → skip x.2 = .ok ()

namespace Follows

variable {R : ι → σ → τ → Prop} {fields : List (String × ι)}

lemma of {a : α} {b : β} {Y : α → β → Prop} (h : Y a b) :
    (Record.of a).Follows R [] (Record.of b) Y where
  members := by
    intro skip skip' xs ys c _ hskip hc
    obtain ⟨rfl, -⟩ := ofMembers_of_iff.mp hc
    exact ⟨b, ofMembers_of_iff.mpr ⟨rfl, fun y hy => hskip y hy (by simp)⟩, h⟩
  items := by
    rintro short short' is xs ys c rest hxy ⟨⟩
    exact ⟨b, ys, rfl, h, hxy⟩
  skips hc x hx _ := (ofMembers_of_iff.mp hc).2 x hx

/-- One more field on both sides, whose values and defaults are related by `A`. -/
lemma field {r : Record σ (α → β)} {r' : Record τ (γ → δ)} {i : ι} {A : α → γ → Prop}
    {Y : β → δ → Prop} (f : Field σ α) (f' : Field τ γ)
    (h : r.Follows R fields r' fun g g' => ∀ a c, A a c → Y (g a) (g' c))
    (hname : f'.name = f.name) (hnew : f.name ∉ fields.map Prod.fst)
    (hf : Carries (R i) f.decode f'.decode A)
    (habs : ∀ a, f.absent = some a → ∃ c, f'.absent = some c ∧ A a c) :
    (r.field f).Follows R (fields ++ [(f.name, i)]) (r'.field f') Y where
  members := by
    intro skip skip' xs ys b hvalues hskip hb
    obtain ⟨g, a, hg, ha, rfl⟩ := ofMembers_field_iff.mp hb
    obtain ⟨hnone, hone⟩ := hvalues (f.name, i) (by simp)
    -- the other fields see what is left, which has the same values under their names
    have hrest : ∃ g', r'.ofMembers skip' none (keyed (without f.name ys)) = .ok g' ∧
        ∀ a c, A a c → Y (g a) (g' c) := by
      refine h.members skip skip' (fun k hk => ?_) (fun y hy hyf => ?_) hg
      · have hne : k.1 ≠ f.name := fun heq => hnew (heq ▸ List.mem_map_of_mem hk)
        rw [valuesOf_without hne, valuesOf_without hne]
        exact hvalues k (by simp [hk])
      · rw [mem_without] at hy
        exact hskip y hy.1 (by simpa [hy.2] using hyf)
    obtain ⟨g', hg', hY⟩ := hrest
    have htakes : ∃ c, FieldTakes f' (valuesOf f.name ys) c ∧ A a c := by
      rcases ha with ⟨v, hv, hva⟩ | ⟨hnil, haa⟩
      · obtain ⟨w, hw, hvw⟩ := hone v hv
        obtain ⟨c, hc, hac⟩ := hf v w a hvw hva
        exact ⟨c, .inl ⟨w, hw, hc⟩, hac⟩
      · obtain ⟨c, hc, hac⟩ := habs a haa
        exact ⟨c, .inr ⟨hnone hnil, hc⟩, hac⟩
    obtain ⟨c, hc, hac⟩ := htakes
    refine ⟨g' c, ofMembers_field_iff.mpr ⟨g', c, ?_, ?_, rfl⟩, hY a c hac⟩
    · rwa [hname]
    · rwa [hname]
  items := by
    intro short short' is xs ys b rest hxy hb
    rw [List.map_append, List.append_assoc] at hxy
    simp only [Record.field, Except.bind_eq_ok, Prod.exists] at hb ⊢
    obtain ⟨g, left, hg, hb⟩ := hb
    obtain ⟨g', left', hg', hY, hleft⟩ := h.items short short' _ hxy hg
    -- the next item is the field's; without one there is the default
    cases hleft with
    | nil =>
      cases haa : f.absent with
      | none => simp [haa] at hb
      | some a =>
        simp only [haa, Except.ok.injEq, Prod.mk.injEq] at hb
        obtain ⟨rfl, rfl⟩ := hb
        obtain ⟨c, hc, hac⟩ := habs a haa
        exact ⟨g' c, [], ⟨g', [], hg', by simp [hc]⟩, hY a c hac, .nil⟩
    | @cons _ _ v w vs ws hvw hrest =>
      simp only [Except.map_eq_ok, Prod.mk.injEq] at hb
      obtain ⟨a, hva, rfl, rfl⟩ := hb
      obtain ⟨c, hc, hac⟩ := hf v w a hvw hva
      exact ⟨g' c, ws, ⟨g', w :: ws, hg', by simp [hc, Except.map]⟩, hY a c hac, hrest⟩
  skips := by
    intro skip xs b hb x hx hxf
    obtain ⟨g, a, hg, -, rfl⟩ := ofMembers_field_iff.mp hb
    rw [List.map_append, List.mem_append, not_or] at hxf
    exact h.skips hg x (mem_without.mpr ⟨hx, by simpa using hxf.2⟩) hxf.1

section kinds

variable {r : Record σ (α → β)} {r' : Record τ (γ → δ)} {name : String} {i : ι}
  {decode : σ → Decoded α} {decode' : τ → Decoded γ} {A : α → γ → Prop} {Y : β → δ → Prop}

lemma required (h : r.Follows R fields r' fun g g' => ∀ a c, A a c → Y (g a) (g' c))
    (hf : Carries (R i) decode decode' A) (hnew : name ∉ fields.map Prod.fst) :
    (r.required name decode).Follows R (fields ++ [(name, i)]) (r'.required name decode') Y :=
  field ⟨name, decode, none⟩ ⟨name, decode', none⟩ h rfl hnew hf nofun

lemma optional {a : α} {c : γ} (h : r.Follows R fields r' fun g g' => ∀ a c, A a c → Y (g a) (g' c))
    (hf : Carries (R i) decode decode' A) (hac : A a c) (hnew : name ∉ fields.map Prod.fst) :
    (r.optional name decode a).Follows R (fields ++ [(name, i)]) (r'.optional name decode' c) Y :=
  field ⟨name, decode, some a⟩ ⟨name, decode', some c⟩ h rfl hnew hf
    fun _ ha => ⟨c, rfl, Option.some.inj ha ▸ hac⟩

end kinds

/-- All items are read, or on neither side. -/
lemma ofItems {r : Record σ α} {r' : Record τ β} {Y : α → β → Prop} {xs : List σ} {ys : List τ}
    {a : α} {shape : String} (h : r.Follows R fields r' Y) (shape' : String)
    (hxy : Aligned R (fields.map Prod.snd) xs ys) (ha : r.ofItems shape none xs = .ok (a, [])) :
    ∃ b, r'.ofItems shape' none ys = .ok (b, []) ∧ Y a b := by
  obtain ⟨b, rest, hb, hY, hrest⟩ := h.items _ (fun i => .mismatch (.invalidLength i
    (.elements shape' r'.size))) [] (by simpa using hxy) ha
  obtain rfl : rest = [] := List.length_eq_zero_iff.mp hrest.length_eq.symm
  exact ⟨b, hb, hY⟩

end Follows

end Record

/-! ### Variants -/

namespace Variant

variable {R : ι → Document → Document → Prop} {v v' : Variant α}

/-- The variants have the same tag and read parts of the same names in the same order. -/
structure Follows (R : ι → Document → Document → Prop) (fields : List (String × ι))
    (v v' : Variant α) : Prop where
  members : ∀ {ms ms' a}, (∀ f ∈ fields, Once (R f.2) (valuesOf f.1 ms) (valuesOf f.1 ms')) →
    v.ofMembers ms = .ok a → v'.ofMembers ms' = .ok a
  items : ∀ {ds es a}, Aligned R (fields.map Prod.snd) ds es →
    v.ofItems ds = .ok a → v'.ofItems es = .ok a

lemma follows_bare (tag : String) (a : α) : (bare tag a).Follows R [] (bare tag a) where
  members _ ha := ha
  items := by
    intro ds es b hxy hb
    have hlen := hxy.length_eq
    cases ds with
    | nil => rwa [List.length_eq_zero_iff.mp hlen.symm]
    | cons d ds => simp [bare] at hb

lemma follows_carrying {fields : List (String × ι)} {r r' : Record Document α} (tag label : String)
    (h : r.Follows R fields r' Eq) :
    (carrying tag label r).Follows R fields (carrying tag label r') where
  members := by
    intro ms ms' a hvalues ha
    obtain ⟨_, hb, rfl⟩ := h.members _ (fun _ => .ok ()) hvalues (fun _ _ _ => rfl) ha
    exact hb
  items := by
    intro ds es a hxy ha
    simp only [carrying, Except.bind_eq_ok, Prod.exists] at ha ⊢
    obtain ⟨a, rest, hr, ha⟩ := ha
    cases rest with
    | nil =>
      obtain ⟨_, hr', rfl⟩ := h.ofItems _ hxy hr
      exact ⟨a, [], hr', ha⟩
    | cons d ds => simp at ha

/-- Variants of the same tags in the same order, each following its counterpart. -/
inductive InStep (R : ι → Document → Document → Prop) :
    List (String × List (String × ι)) → List (Variant α) → List (Variant α) → Prop
  | nil : InStep R [] [] []
  | cons {tag : String} {fields : List (String × ι)} {v v' : Variant α}
    {table : List (String × List (String × ι))} {vs vs' : List (Variant α)} (ht : v.tag = tag)
    (ht' : v'.tag = tag) (h : v.Follows R fields v') (hs : InStep R table vs vs') :
    InStep R ((tag, fields) :: table) (v :: vs) (v' :: vs')

namespace InStep

variable {table : List (String × List (String × ι))} {vs vs' : List (Variant α)}

lemma find (h : InStep R table vs vs') {tag : String} (hv : Variant.find vs tag = .ok v) :
    ∃ e v', table.find? (fun e => e.1 == tag) = some e ∧ Variant.find vs' tag = .ok v' ∧
      v.Follows R e.2 v' := by
  suffices hfind : ∀ v, vs.find? (fun v => v.tag == tag) = some v → ∃ e v',
      table.find? (fun e => e.1 == tag) = some e ∧ vs'.find? (fun v => v.tag == tag) = some v' ∧
        v.Follows R e.2 v' by
    unfold Variant.find at hv
    split at hv
    · next w hw =>
      cases hv
      obtain ⟨e, v', he, hv', hfollows⟩ := hfind v hw
      exact ⟨e, v', he, by simp [Variant.find, hv'], hfollows⟩
    · cases hv
  clear hv
  intro v hv
  induction h with
  | nil => simp at hv
  | @cons t fields w w' _ _ _ ht ht' hw _ ih =>
    rw [List.find?_cons, ht] at hv
    rw [List.find?_cons, List.find?_cons, ht']
    cases htag : t == tag with
    | true =>
      simp only [htag, Option.some.injEq] at hv
      subst hv
      exact ⟨_, _, rfl, rfl, hw⟩
    | false =>
      simp only [htag] at hv
      exact ih hv

lemma nth (h : InStep R table vs vs') {n : UInt64} (hv : Variant.nth vs n = .ok v) :
    ∃ e v', table[n.toNat]? = some e ∧ Variant.nth vs' n = .ok v' ∧ v.Follows R e.2 v' := by
  suffices hget : ∀ (i : ℕ) v, vs[i]? = some v → ∃ e v',
      table[i]? = some e ∧ vs'[i]? = some v' ∧ v.Follows R e.2 v' by
    unfold Variant.nth at hv
    split at hv
    · next w hw =>
      cases hv
      obtain ⟨e, v', he, hv', hfollows⟩ := hget _ v hw
      exact ⟨e, v', he, by simp [Variant.nth, hv'], hfollows⟩
    · cases hv
  clear hv
  intro i v hv
  induction h generalizing i with
  | nil => simp at hv
  | cons ht ht' hw _ ih =>
    cases i with
    | zero =>
      obtain rfl : _ = v := by simpa using hv
      exact ⟨_, _, rfl, rfl, hw⟩
    | succ i => exact ih i (by simpa using hv)

end InStep

end Variant

end PacketSections.Json
