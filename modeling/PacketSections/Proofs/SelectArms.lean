import Mathlib
import PacketSections.Proofs.RoundTrip
import PacketSections.Proofs.Simulation

/-!
What the arms of a selection ask for.

An element of a case is compared with the key at its own position. When there are more elements than
keys, those left over are compared with nothing, and when there are fewer, the keys left over are
not asked for. So an arm tests all that its case asks for exactly when only defaults are left over.
It may also test nothing, and a case without elements counts as one of defaults only. With one
element for each key, none of this happens.
-/

namespace PacketSections

open Lowering

variable {facts : Facts} {storage : Storage} {keys : List Expr}

/-! ### Terms -/

lemma term?_eq_none_iff {text : Expr → String} {key : Expr} {k : Keyset} :
    k.term? text key = none ↔ k = .default := by
  cases k <;> simp [Keyset.term?]

lemma ne_empty_of_mem_terms {text : Expr → String} {ks : List Keyset} {t : String}
    (h : t ∈ Keyset.terms text keys ks) : t ≠ "" := by
  obtain ⟨⟨key, k⟩, -, hk⟩ := List.mem_filterMap.mp h
  cases k with
  | value v =>
    obtain rfl := Option.some.inj hk
    simp
  | mask v m =>
    obtain rfl := Option.some.inj hk
    simp
  | default => cases hk

/-- A conjunction is empty only if there is nothing to join. -/
lemma conjunction_eq_empty_iff {ts : List String} (h : ∀ t ∈ ts, t ≠ "") :
    conjunction ts = "" ↔ ts = [] := by
  match ts with
  | [] => simp [conjunction]
  | [t] => simpa [conjunction] using h t
  | t :: t' :: ts => simp [conjunction, String.intercalate_cons_cons]

/-! ### Cases -/

namespace SelectCase

/-- The condition is not empty, and is made of one term for each element that is no default, which
compares that element with its key. -/
def TestedBy (facts : Facts) (storage : Storage) (keys : List Expr) (c : SelectCase)
    (condition : String) : Prop :=
  condition ≠ "" ∧ ∃ ts, condition = conjunction ts ∧
    List.Forall₂ (fun k t => ∃ key, keys[k.2]? = some key ∧
        keyCondition? facts storage (convert facts storage key) k.1 = some t)
      (c.keyset.zipIdx.filter fun k => k.1 ≠ .default) ts

/-- Elements that have no key are defaults. -/
def Covered (keys : List Expr) (c : SelectCase) : Prop :=
  ∀ k ∈ c.keyset.drop keys.length, k = .default

instance (keys : List Expr) (c : SelectCase) : Decidable (c.Covered keys) :=
  inferInstanceAs (Decidable (∀ k ∈ c.keyset.drop keys.length, k = .default))

end SelectCase

/-- The elements from position `n` on are compared with the keys from there on. -/
lemma forall₂_terms {n : ℕ} {ks : List Keyset}
    (h : ∀ k ∈ ks.drop (keys.length - n), k = .default) :
    List.Forall₂ (fun k t => ∃ key, keys[k.2]? = some key ∧
        keyCondition? facts storage (convert facts storage key) k.1 = some t)
      ((ks.zipIdx n).filter fun k => k.1 ≠ .default)
      (Keyset.terms (convert facts storage) (keys.drop n) ks) := by
  simp only [keyCondition?_convert]
  induction ks generalizing n with
  | nil => simp [Keyset.terms]
  | cons k ks ih =>
    by_cases hn : n < keys.length
    · have hlen : keys.length - n = keys.length - (n + 1) + 1 := by omega
      rw [hlen, List.drop_succ_cons] at h
      have hrest := ih h
      have hkey : keys[n]? = some keys[n] := List.getElem?_eq_getElem hn
      unfold Keyset.terms at hrest ⊢
      rw [List.drop_eq_getElem_cons hn, List.zip_cons_cons, List.zipIdx_cons, List.filterMap_cons,
        List.filter_cons]
      cases hk : k.term? (convert facts storage) keys[n] with
      | none =>
        have hdefault : k = .default := term?_eq_none_iff.mp hk
        simpa [hdefault] using hrest
      | some t =>
        have hother : k ≠ .default := fun heq => by
          rw [term?_eq_none_iff.mpr heq] at hk
          cases hk
        simp only [hother, ne_eq, not_false_eq_true, decide_true, if_true]
        exact .cons ⟨_, hkey, hk⟩ hrest
    · -- no keys are left, and no elements either except for defaults
      have hzero : keys.length - n = 0 := by omega
      rw [hzero, List.drop_zero] at h
      have hnone : ((k :: ks).zipIdx n).filter (fun k => k.1 ≠ .default) = [] := by
        rw [List.filter_eq_nil_iff]
        intro e he
        simpa using h e.1 (List.fst_mem_of_mem_zipIdx he)
      rw [hnone, List.drop_eq_nil_of_le (by omega)]
      exact .nil

lemma covered_of_testedBy {c : SelectCase} {condition : String}
    (h : c.TestedBy facts storage keys condition) : c.Covered keys := by
  obtain ⟨-, ts, -, hts⟩ := h
  have hbound : List.Forall₂ (fun (k : Keyset × ℕ) _ => k.2 < keys.length ∧ True)
      (c.keyset.zipIdx.filter fun k => k.1 ≠ .default) ts := by
    refine hts.imp fun k t hk => ?_
    obtain ⟨key, hkey, -⟩ := hk
    exact ⟨(List.getElem?_eq_some_iff.mp hkey).1, trivial⟩
  have hkeys := ((List.forall₂_and_left _ ts).mp hbound).1
  intro k hk
  by_contra hother
  obtain ⟨j, hj⟩ := List.mem_iff_getElem?.mp hk
  rw [List.getElem?_drop] at hj
  have hmem : (k, keys.length + j) ∈ c.keyset.zipIdx := List.mk_mem_zipIdx_iff_getElem?.mpr hj
  have hlt : keys.length + j < keys.length :=
    hkeys _ (List.mem_filter.mpr ⟨hmem, by simpa using hother⟩)
  omega

/-- **One case.** The condition of an arm is that of its case exactly when the elements without a
key are defaults. -/
lemma testedBy_iff {c : SelectCase} (hd : c.isDefault = false) :
    c.TestedBy facts storage keys
        (conjunction (Keyset.terms (convert facts storage) keys c.keyset)) ↔
      c.Covered keys := by
  constructor
  · exact covered_of_testedBy
  · intro hcovered
    refine ⟨?_, _, rfl, forall₂_terms (n := 0) hcovered⟩
    rw [ne_eq, conjunction_eq_empty_iff fun t => ne_empty_of_mem_terms, terms_eq_nil_iff]
    intro htaken
    have hall : ∀ k ∈ c.keyset, k = .default := by
      intro k hk
      rw [← List.take_append_drop keys.length c.keyset, List.mem_append] at hk
      exact hk.elim (htaken k) (hcovered k)
    rw [SelectCase.isDefault_iff.mpr hall] at hd
    cases hd

/-! ### Selections -/

/-- The cases before the first one that always matches have their arms. -/
lemma selectArms_eq (facts : Facts) (storage : Storage) (keys : List Expr)
    (cases : List SelectCase) :
    selectArms facts storage (keys.map (convert facts storage)) cases =
      ((cases.takeWhile fun c => !c.isDefault).map fun c =>
          ⟨conjunction (Keyset.terms (convert facts storage) keys c.keyset), c.target⟩,
        (cases.find? SelectCase.isDefault).elim State.rejectName SelectCase.target) := by
  induction cases with
  | nil => rfl
  | cons c cs ih =>
    rw [selectArms, ih, List.takeWhile_cons, List.find?_cons, caseCondition_terms]
    cases c.isDefault <;> rfl

/-- A section that selects is that of a state that does. -/
lemma select_of_section {u : ParserUnit} {p : Program} (h : (lower facts u).result = .ok p) {i : ℕ}
    {sec : Section} (hsec : p.sections[i]? = some sec) {arms : List SelectArm} {otherwise : String}
    (hnext : sec.next = .select arms otherwise) :
    ∃ s keys cases, u.states[i]? = some s ∧ s.isTerminal = false ∧
      s.transition = some (.select keys cases) ∧
      selectArms facts p.storage (keys.map (convert facts p.storage)) cases =
        (arms, otherwise) := by
  obtain ⟨sets, -, -, -, -, hstorage⟩ := lower_parts h
  have hlen := (lower_becomes h).length_eq
  have hi : i < u.states.length := by
    rw [hlen]
    exact (List.getElem?_eq_some_iff.mp hsec).1
  have hs : u.states[i]? = some u.states[i] := List.getElem?_eq_getElem hi
  obtain ⟨sec', hsec', hb⟩ := lower_becomes_at h hs
  rw [hsec] at hsec'
  obtain rfl := Option.some.inj hsec'
  rw [← hstorage] at hb
  cases hterm : u.states[i].isTerminal with
  | true =>
    rw [hb.stops hterm] at hnext
    cases hnext
  | false =>
    rw [hb.goesOn hterm] at hnext
    match ht : u.states[i].transition with
    | none =>
      rw [ht] at hnext
      cases hnext
    | some (.direct target) =>
      rw [ht] at hnext
      cases hnext
    | some (.select keys cases) =>
      rw [ht, lowerTransition] at hnext
      obtain ⟨harms, hother⟩ := Next.select.inj hnext
      exact ⟨_, keys, cases, hs, hterm, ht, Prod.ext harms hother⟩

/-- With one element for each key, no element is without one. -/
lemma covered_of_length {c : SelectCase} (h : c.keyset.length = keys.length) : c.Covered keys := by
  intro k hk
  rw [List.drop_eq_nil_of_le h.le] at hk
  cases hk

/-- One key, and cases with two elements, with none and with one. -/
def unevenParser : ParserUnit :=
  { sampleParser with
    states :=
      let value (n : UInt64) : Keyset := .value (.constant n none none)
      [⟨"start", [],
        some (.select [.member (.member (.path "hdr" none) "outer" none) "kind" none]
          [⟨[.default, value 3], "inner"⟩, ⟨[value 7, value 3], "accept"⟩, ⟨[], "inner"⟩,
           ⟨[.default], "accept"⟩]), none⟩,
       .bare "inner", .bare "accept", .bare "reject"] }

end PacketSections
