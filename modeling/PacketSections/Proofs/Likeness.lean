import Mathlib
import PacketSections.Proofs.Schema

/-!
Readers cannot tell what is alike.

Whatever likeness there is between drafts, a reader that accepts the first accepts the second and
makes the same of it. This goes up from strings and numbers to whole parsers: for complete documents
first, which is how all inside a tagged object is read, and then for drafts.
-/

namespace PacketSections

open Json

variable {R : ℕ → ℕ → Form → Draft → Draft → Prop} {m : ℕ} {f : Form} {p : Part} {α : Type}

/-! ### Values that are no parts -/

lemma rigid_of_asString {d : Document} {s : String} (h : d.asString = .ok s) : Rigid f d := by
  cases d with
  | string s => exact .string f s
  | _ => cases h

lemma rigid_of_asBool {d : Document} {b : Bool} (h : d.asBool = .ok b) : Rigid f d := by
  cases d with
  | bool b => exact .bool f b
  | _ => cases h

lemma rigid_of_asWord32 {d : Document} {w : UInt32} (h : d.asWord32 = .ok w) : Rigid f d := by
  cases d with
  | number n => exact .number f n
  | _ => cases h

lemma rigid_of_asWord64 {d : Document} {w : UInt64} (h : d.asWord64 = .ok w) : Rigid f d := by
  cases d with
  | number n => exact .number f n
  | _ => cases h

lemma rigid_of_asChoice {table : List (String × α)} {d : Document} {a : α}
    (h : d.asChoice table = .ok a) : Rigid .plain d := by
  unfold Document.asChoice at h
  split at h
  · exact .string _ _
  · next k d =>
    obtain ⟨b, -, h⟩ := Except.bind_eq_ok.mp h
    split at h
    · exact .choice k
    · exact .empty k
    · cases h
  · cases h
  · cases h

lemma rigid_of_asTag {ws : List (Variant α)} {d : Document} {w : Variant α}
    (h : d.asTag ws = .ok w) : Rigid f d := by
  unfold Document.asTag at h
  split at h
  · exact .string _ _
  · exact .number _ _
  · cases h

namespace Likeness

lemma carries_rigid (hR : Likeness R) {decode : Document → Decoded α}
    (h : ∀ {d a}, decode d = .ok a → Rigid f d) : Carries (Mirrors R m f) decode decode Eq := by
  refine .of_eq fun d e a hde ha => ?_
  rwa [hR.mirrors_rigid hde (h ha)]

lemma carries_asOption (hR : Likeness R) {decode decode' : Document → Decoded α}
    (h : Carries (Mirrors R m f) decode decode' Eq) :
    Carries (Mirrors R m f) (Document.asOption decode) (Document.asOption decode') Eq := by
  refine .of_eq fun d e o hde ho => ?_
  by_cases hd : d = .null
  · subst hd
    rwa [hR.mirrors_rigid hde (.null f)]
  · -- then the other one is not null either, so both are read
    have he : e ≠ .null := fun he => hd (hR.mirrors_null (he ▸ hde))
    have hread : ∀ {decode : Document → Decoded α} {d : Document}, d ≠ .null →
        Document.asOption decode d = (decode d).map some := by
      intro decode d hd
      cases d with
      | null => exact absurd rfl hd
      | _ => rfl
    rw [hread hd] at ho
    rw [hread he]
    exact (h.map some).ok hde ho

lemma carries_asList (hR : Likeness R) {decode decode' : Document → Decoded α}
    (h : ∀ k, Carries (Mirrors R k (.one p)) decode decode' Eq) :
    Carries (Mirrors R m (.many p)) (Document.asList decode) (Document.asList decode') Eq := by
  refine .of_eq fun d e as hde has => ?_
  cases d with
  | array ds =>
    obtain ⟨k, es, rfl, rfl, hes⟩ := hR.mirrors_list hde
    exact (h k).mapM hes has
  | _ => cases has

lemma carries_asRecord (hR : Likeness R) {fs : Fields} (hp : p.shape = .record fs)
    {r : Record Document α} (name : String) (h : ∀ k, r.Follows (Mirrors R k) fs r Eq) :
    Carries (Mirrors R m (.one p)) (Document.asRecord name r) (Document.asRecord name r) Eq := by
  refine .of_eq fun d e a hde ha => ?_
  cases d with
  | array ds =>
    obtain ⟨k, es, rfl, rfl, hes⟩ := hR.mirrors_items hde
    rw [hp] at hes
    simp only [Document.asRecord, Except.bind_eq_ok, Prod.exists] at ha ⊢
    obtain ⟨a, rest, hr, ha⟩ := ha
    cases rest with
    | nil =>
      obtain ⟨_, hr', rfl⟩ := (h k).ofItems _ hes hr
      exact ⟨a, [], hr', ha⟩
    | cons d ds => simp at ha
  | object ms =>
    obtain ⟨k, ns, rfl, rfl, hns⟩ := hR.mirrors_members hde
    rw [hp] at hns
    obtain ⟨_, hb, rfl⟩ := (h k).members _ (fun _ => .ok ()) hns (fun _ _ _ => rfl) ha
    exact hb
  | _ => cases ha

end Likeness

/-! ### Tagged objects -/

/-- What holds of the fields of each tag, and of none, holds of those that a tag selects. -/
lemma Shape.variant_satisfies {P : Fields → Prop} {table : List (String × Fields)} (hnil : P [])
    (h : ∀ e ∈ table, P e.2) (t : Draft) : P (variant table t) := by
  have hgetD (o : Option (String × Fields)) (ho : ∀ e ∈ o, e ∈ table) :
      P ((o.map Prod.snd).getD []) := by
    cases o with
    | none => exact hnil
    | some e => exact h e (ho e rfl)
  unfold variant
  split
  · exact hgetD _ fun e he => List.mem_of_find?_eq_some he
  · exact hgetD _ fun e he => List.mem_of_getElem? he
  · exact hnil

lemma Shape.notMem_variant {name : String} {table : List (String × Fields)}
    (h : ∀ e ∈ table, name ∉ e.2.map Prod.fst) (t : Draft) :
    name ∉ (variant table t).map Prod.fst :=
  variant_satisfies (P := fun fs => name ∉ fs.map Prod.fst) (by simp) h t

/-- No field has the name of the tag. -/
lemma Part.tagName_notMem {table : List (String × Fields)} (hp : p.shape = .tagged table)
    (t : Draft) : tagName ∉ (Shape.variant table t).map Prod.fst :=
  Shape.notMem_variant (by cases p <;> cases hp <;> decide) t

section tagged

variable {D : Form → Document → Document → Prop} {table : List (String × Fields)}
  {ws ws' : List (Variant α)}

lemma asTag_inStep (h : Variant.InStep D table ws ws') {t : Document} {w : Variant α}
    (hw : t.asTag ws = .ok w) :
    ∃ w', t.asTag ws' = .ok w' ∧ w.Follows D (Shape.variant table (.ofDocument t)) w' := by
  unfold Document.asTag at hw
  split at hw
  · next s =>
    obtain ⟨e, w', he, hw', hfollows⟩ := h.find hw
    refine ⟨w', hw', ?_⟩
    rwa [Draft.ofDocument, Shape.variant, he]
  · next n =>
    obtain ⟨e, w', he, hw', hfollows⟩ := h.nth hw
    refine ⟨w', hw', ?_⟩
    rwa [Draft.ofDocument, Shape.variant, he]
  · cases hw

/-- Members that agree on the tag and on the fields of its variant are read alike. -/
lemma ofTagged_inStep (h : Variant.InStep D table ws ws')
    (htag : ∀ t, tagName ∉ (Shape.variant table t).map Prod.fst)
    (hrigid : ∀ {t t' : Document}, D .plain t t' → Rigid .plain t → t' = t)
    {ms ns : List (String × Document)} {a : α}
    (hvalues : ∀ f ∈ (Shape.tagged table).fields ((valuesOf tagName ms).map .ofDocument),
      Once (D f.2) (valuesOf f.1 ms) (valuesOf f.1 ns))
    (ha : Document.ofTagged ws ms = .ok a) :
    Document.ofTagged ws' ns = .ok a ∧ valuesOf tagName ns = valuesOf tagName ms := by
  obtain ⟨t, w, ht, hw, ha⟩ := Document.ofTagged_iff.mp ha
  simp only [ht, List.map_cons, List.map_nil, Shape.fields, List.forall_mem_cons] at hvalues
  obtain ⟨hkind, hfields⟩ := hvalues
  obtain ⟨t', ht', htt'⟩ := hkind.2 t rfl
  obtain rfl := hrigid htt' (rigid_of_asTag hw)
  obtain ⟨w', hw', hfollows⟩ := asTag_inStep h hw
  refine ⟨Document.ofTagged_iff.mpr ⟨t', w', ht', hw', hfollows.members ?_ ha⟩, by rw [ht', ht]⟩
  intro f hf
  have hne : f.1 ≠ tagName := fun heq => htag _ (List.mem_map.mpr ⟨f, hf, heq⟩)
  rw [valuesOf_without hne, valuesOf_without hne]
  exact hfields f hf

end tagged

namespace Likeness

variable {table : List (String × Fields)} {ws ws' : List (Variant α)}

lemma asTagged_mirrors (hR : Likeness R) (hp : p.shape = .tagged table) {owner : String}
    (h : ∀ k, m = k + 1 → Variant.InStep (Mirrors R k) table ws ws') {d e : Document} {a : α}
    (hde : Mirrors R m (.one p) d e) (ha : d.asTagged owner ws = .ok a) :
    e.asTagged owner ws' = .ok a ∧ (d.Spelled → e.Spelled) := by
  unfold Document.asTagged at ha
  split at ha
  · next ms =>
    obtain ⟨k, ns, rfl, rfl, hns⟩ := hR.mirrors_members hde
    rw [hp] at hns
    obtain ⟨hread, hkinds⟩ := ofTagged_inStep (h k rfl) (Part.tagName_notMem hp)
      (fun ht => hR.mirrors_rigid ht) hns ha
    refine ⟨hread, fun hspell => ?_⟩
    rwa [Document.Spelled, hkinds]
  · cases ha
  · next t ds =>
    obtain ⟨k, es, rfl, rfl, hes⟩ := hR.mirrors_items hde
    rw [hp] at hes
    obtain ⟨w, hw, hitems⟩ := Except.bind_eq_ok.mp ha
    -- the tag comes first in both lists
    obtain _ | @⟨_, _, _, t', _, es, htt', hes⟩ := hes
    obtain rfl := hR.mirrors_rigid htt' (rigid_of_asTag hw)
    obtain ⟨w', hw', hfollows⟩ := asTag_inStep (h k rfl) hw
    exact ⟨Except.bind_eq_ok.mpr ⟨w', hw', hfollows.items hes hitems⟩, id⟩
  · cases ha

lemma carries_asTagged (hR : Likeness R) (hp : p.shape = .tagged table) (owner : String)
    (h : ∀ k, m = k + 1 → Variant.InStep (Mirrors R k) table ws ws') :
    Carries (Mirrors R m (.one p)) (Document.asTagged owner ws) (Document.asTagged owner ws') Eq :=
  .of_eq fun _ _ _ hde ha => (hR.asTagged_mirrors hp h hde ha).1

end Likeness

/-! ### Parts of documents -/

/-- The place takes the value under its name, and the other members stay as they are. -/
lemma Expr.splitSpan_iff {span : Document → Decoded (Option Span)} {s t : Option (Option Span)}
    {ms others : List (String × Document)} :
    splitSpan span .ok s (Variant.named ms) = .ok (t, others) ↔
      others = without "span" ms ∧ Taken span (valuesOf "span" ms) s t := by
  induction ms generalizing s t others with
  | nil => simp [splitSpan, Variant.named, Taken, eq_comm, and_comm]
  | cons m ms ih =>
    obtain ⟨k, d⟩ := m
    rw [valuesOf_cons, without_cons]
    by_cases hk : k = "span"
    · subst hk
      simp only [if_true, taken_cons]
      cases s with
      | some o =>
        have htwice : splitSpan span .ok (some o) (Variant.named (("span", d) :: ms)) =
            .fail (.duplicateField "span") := rfl
        simp [htwice]
      | none =>
        have hown : splitSpan span .ok none (Variant.named (("span", d) :: ms)) =
            span d >>= fun t => splitSpan span .ok (some t) (Variant.named ms) := rfl
        simp only [hown, Except.bind_eq_ok, ih]
        constructor
        · rintro ⟨o, ho, rfl, ht⟩
          exact ⟨rfl, o, trivial, ho, ht⟩
        · rintro ⟨rfl, o, -, ho, ht⟩
          exact ⟨o, ho, rfl, ht⟩
    · have hother : splitSpan span .ok s (Variant.named ((k, d) :: ms)) =
          splitSpan span .ok s (Variant.named ms) >>= fun p => .ok (p.1, (k, d) :: p.2) := by
        change (if k = "span" then _ else _) = _
        rw [if_neg hk]
        rfl
      simp only [hother, hk, if_false, Except.bind_eq_ok, Prod.exists, ih, Except.ok.injEq,
        Prod.mk.injEq]
      constructor
      · rintro ⟨_, _, ⟨rfl, ht⟩, rfl, rfl⟩
        exact ⟨rfl, ht⟩
      · rintro ⟨rfl, ht⟩
        exact ⟨t, _, ⟨rfl, ht⟩, rfl, rfl⟩

section documents

variable (hR : Likeness R)

include hR

lemma Likeness.carries_string : Carries (Mirrors R m f) Document.asString Document.asString Eq :=
  hR.carries_rigid rigid_of_asString

lemma Likeness.carries_word32 : Carries (Mirrors R m f) Document.asWord32 Document.asWord32 Eq :=
  hR.carries_rigid rigid_of_asWord32

omit hR in
lemma Span.record_follows {σ τ : Type} {D : Form → σ → τ → Prop} {word : σ → Decoded UInt32}
    {word' : τ → Decoded UInt32} (h : Carries (D .plain) word word' Eq) :
    (record word).Follows D (Part.span.shape.fields []) (record word') Eq :=
  .required (.required (.of (by simp)) h (by simp)) h (by decide)

lemma Span.carries_ofDocument : Carries (Mirrors R m (.one .span)) ofDocument ofDocument Eq :=
  (hR.carries_asRecord rfl "RawSpan" fun _ => record_follows hR.carries_word32).bind _

lemma Span.field_follows {r r' : Record Document (Option Span → α)} {fs : Fields}
    (h : r.Follows (Mirrors R m) fs r' fun g g' => ∀ s t, s = t → g s = g' t)
    (hnew : "span" ∉ fs.map Prod.fst) :
    (field r).Follows (Mirrors R m) (fs ++ [("span", .one .span)]) (field r') Eq :=
  .optional h (hR.carries_asOption (carries_ofDocument hR)) rfl hnew

lemma TypeRef.variants_inStep {inner inner' : Document → Decoded TypeRef}
    (h : Carries (Mirrors R m (.one .typeRef)) inner inner' Eq) :
    Variant.InStep (Mirrors R m) Part.typeRef.shape.table (variants inner) (variants inner') := by
  refine .cons rfl rfl (Variant.follows_carrying _ _ ?_) <|
    .cons rfl rfl (Variant.follows_bare _ _) <|
    .cons rfl rfl (Variant.follows_carrying _ _ ?_) <|
    .cons rfl rfl (Variant.follows_carrying _ _ ?_) .nil
  · exact .required (.of (by simp)) hR.carries_word32 (by simp)
  · exact .required (.of (by simp)) hR.carries_string (by simp)
  · exact .required (.required (.of (by simp)) h (by simp)) hR.carries_word32 (by decide)

/-- However many levels the first reader may enter, as many as there are do for the second. -/
lemma TypeRef.carries_ofLevels (n : ℕ) :
    Carries (Mirrors R m (.one .typeRef)) (ofLevels n) (ofLevels (m + 1)) Eq := by
  induction n generalizing m with
  | zero => exact fun _ _ _ _ ha => by cases ha
  | succ n ih =>
    refine hR.carries_asTagged rfl "TypeRef" fun k hk => ?_
    subst hk
    exact variants_inStep hR ih

lemma TypeRef.carries_ofDocument :
    Carries (Mirrors R m (.one .typeRef)) ofDocument ofDocument Eq :=
  fun d e a hde => carries_ofLevels hR (d.depth + 1) d e a ⟨le_refl e.depth, hde.2⟩

lemma FieldDecl.carries_ofDocument :
    Carries (Mirrors R m (.one .fieldDecl)) ofDocument ofDocument Eq :=
  hR.carries_asRecord rfl "FieldDecl" fun _ =>
    .required (.required (.of (by simp)) hR.carries_string (by simp))
      (TypeRef.carries_ofDocument hR) (by decide)

lemma TypeDecl.variants_inStep :
    Variant.InStep (Mirrors R m) Part.typeDecl.shape.table variants variants := by
  have hfields (make : List FieldDecl → TypeDecl) : Record.Follows (Mirrors R m)
      [("fields", .many .fieldDecl)]
      ((Record.of make).required "fields" (Document.asList FieldDecl.ofDocument))
      ((Record.of make).required "fields" (Document.asList FieldDecl.ofDocument)) Eq :=
    .required (.of (by simp)) (hR.carries_asList fun _ => FieldDecl.carries_ofDocument hR) (by simp)
  exact .cons rfl rfl (Variant.follows_carrying _ _ (hfields _)) <|
    .cons rfl rfl (Variant.follows_carrying _ _ (hfields _)) <|
    .cons rfl rfl (Variant.follows_carrying _ _ (hfields _)) <|
    .cons rfl rfl (Variant.follows_bare _ _) .nil

lemma Expr.variants_inStep {inner inner' : Document → Decoded Expr}
    (h : Carries (Mirrors R m (.one .expr)) inner inner' Eq) :
    Variant.InStep (Mirrors R m) forms (variants inner) (variants inner') := by
  have hstring := hR.carries_string (m := m) (f := .plain)
  have hword := hR.carries_word32 (m := m) (f := .plain)
  refine .cons rfl rfl (Variant.follows_carrying _ _ ?_) <|
    .cons rfl rfl (Variant.follows_carrying _ _ ?_) <|
    .cons rfl rfl (Variant.follows_carrying _ _ ?_) <|
    .cons rfl rfl (Variant.follows_carrying _ _ ?_) <|
    .cons rfl rfl (Variant.follows_carrying _ _ ?_) <|
    .cons rfl rfl (Variant.follows_carrying _ _ ?_) <|
    .cons rfl rfl (Variant.follows_carrying _ _ ?_) <|
    .cons rfl rfl (Variant.follows_carrying _ _ ?_) .nil
  · exact .required (.of (by simp)) hstring (by simp)
  · exact .required (.required (.of (by simp)) h (by simp)) hstring (by decide)
  · exact .required (.required (.of (by simp)) h (by simp)) h (by decide)
  · exact .required (.required (.required (.of (by simp)) h (by simp)) hword (by decide)) hword
      (by decide)
  · exact .optional (.required (.of (by simp)) (hR.carries_rigid rigid_of_asWord64) (by simp))
      (hR.carries_asOption hword) rfl (by decide)
  · exact .required (.of (by simp)) (hR.carries_rigid rigid_of_asBool) (by simp)
  · exact .required (.required (.of (by simp)) (hR.carries_rigid rigid_of_asChoice) (by simp)) h
      (by decide)
  · exact .required (.required (.required (.of (by simp)) (hR.carries_rigid rigid_of_asChoice)
      (by simp)) h (by decide)) h (by decide)

omit hR in
/-- Where a tag is known, its variant has the further field too. -/
lemma Expr.variant_place {D : Form → Document → Document → Prop} {ws ws' : List (Variant Expr)}
    {t : Document} {w : Variant Expr} (h : Variant.InStep D forms ws ws')
    (hw : t.asTag ws = .ok w) :
    Shape.variant Part.expr.shape.table (.ofDocument t) =
      Shape.variant forms (.ofDocument t) ++ [("span", .one .span)] := by
  unfold Document.asTag at hw
  split at hw
  · next s =>
    obtain ⟨e, w', he, -⟩ := h.find hw
    simp only [Draft.ofDocument, Shape.variant, Part.shape, Shape.table, List.find?_map,
      Function.comp_def, he]
    rfl
  · next n =>
    obtain ⟨e, w', he, -⟩ := h.nth hw
    simp only [Draft.ofDocument, Shape.variant, Part.shape, Shape.table, List.getElem?_map, he]
    rfl
  · cases hw

lemma Expr.carries_ofLevels (n : ℕ) :
    Carries (Mirrors R m (.one .expr)) (ofLevels n) (ofLevels (m + 1)) Eq := by
  induction n generalizing m with
  | zero => exact fun _ _ _ _ ha => by cases ha
  | succ n ih =>
    refine .of_eq fun d e a hde ha => ?_
    cases d with
    | object ms =>
      obtain ⟨k, ns, rfl, rfl, hns⟩ := hR.mirrors_members hde
      simp only [ofLevels, Except.bind_eq_ok, Prod.exists, splitSpan_iff] at ha ⊢
      obtain ⟨place, _, ⟨rfl, hplace⟩, b, hb, hab⟩ := ha
      have hvs := variants_inStep hR (ih (m := k))
      -- the tag is among the members besides the place, and says which fields there are
      obtain ⟨t, w, ht, hw, -⟩ := Document.ofTagged_iff.mp hb
      have hkind : valuesOf tagName ms = [t] := by
        rwa [valuesOf_without (by decide)] at ht
      have hfields : Part.expr.shape.fields ((valuesOf tagName ms).map .ofDocument) =
          (tagName, .plain) :: (Shape.variant forms (.ofDocument t) ++ [("span", .one .span)]) := by
        rw [hkind, ← variant_place hvs hw]
        rfl
      rw [hfields] at hns
      have hspan : Once (Mirrors R k (.one .span)) (valuesOf "span" ms) (valuesOf "span" ns) :=
        hns ("span", .one .span) (by simp)
      have hplace' := hspan.taken (hR.carries_asOption (Span.carries_ofDocument hR)) hplace
      refine ⟨place, _, ⟨rfl, hplace'⟩, b, ?_, hab⟩
      refine (ofTagged_inStep hvs ?_ (fun ht => hR.mirrors_rigid ht) (fun f hf => ?_) hb).1
      · exact Shape.notMem_variant (by decide)
      · have hmem : f ∈ (tagName, .plain) :: Shape.variant forms (.ofDocument t) := by
          rwa [ht] at hf
        have hne : f.1 ≠ "span" := by
          have hspan : "span" ∉ (Shape.variant forms (.ofDocument t)).map Prod.fst :=
            Shape.notMem_variant (by decide) _
          rcases List.mem_cons.mp hmem with rfl | hf
          · decide
          · exact fun heq => hspan (List.mem_map.mpr ⟨f, hf, heq⟩)
        rw [valuesOf_without hne, valuesOf_without hne]
        exact hns f (by rw [← List.cons_append]; exact List.mem_append_left _ hmem)
    | _ => cases ha

lemma Expr.carries_ofDocument : Carries (Mirrors R m (.one .expr)) ofDocument ofDocument Eq :=
  fun d e a hde => carries_ofLevels hR (d.depth + 1) d e a ⟨le_refl e.depth, hde.2⟩

lemma LocalDecl.variants_inStep :
    Variant.InStep (Mirrors R m) Part.localDecl.shape.table variants variants := by
  have hstring := hR.carries_string (m := m) (f := .plain)
  have htype := TypeRef.carries_ofDocument hR (m := m)
  refine .cons rfl rfl (Variant.follows_carrying _ _ ?_) <|
    .cons rfl rfl (Variant.follows_carrying _ _ ?_) <|
    .cons rfl rfl (Variant.follows_carrying _ _ ?_) .nil
  · exact Span.field_follows hR (.optional (.optional (.required (.required (.of (by simp)) hstring
      (by simp)) htype (by decide)) hR.carries_word32 rfl (by decide)) (hR.carries_asOption hstring)
      rfl (by decide)) (by decide)
  · exact Span.field_follows hR (.optional (.required (.required (.of (by simp)) hstring (by simp))
      htype (by decide)) (hR.carries_asOption (Expr.carries_ofDocument hR)) rfl (by decide))
      (by decide)
  · exact Span.field_follows hR (.required (.required (.of (by simp)) hstring (by simp)) htype
      (by decide)) (by decide)

lemma Statement.variants_inStep :
    Variant.InStep (Mirrors R m) Part.statement.shape.table variants variants := by
  have hexpr := fun m => Expr.carries_ofDocument hR (m := m)
  refine .cons rfl rfl (Variant.follows_carrying _ _ ?_) <|
    .cons rfl rfl (Variant.follows_carrying _ _ ?_) <|
    .cons rfl rfl (Variant.follows_bare _ _) <|
    .cons rfl rfl (Variant.follows_carrying _ _ ?_) .nil
  · exact Span.field_follows hR (.required (.required (.of (by simp)) (hexpr m) (by simp)) (hexpr m)
      (by decide)) (by decide)
  · exact Span.field_follows hR (.optional (.required (.of (by simp)) (hexpr m) (by simp))
      (hR.carries_asList hexpr) rfl (by decide)) (by decide)
  · exact Span.field_follows hR (.required (.of (by simp)) hR.carries_string (by simp)) (by decide)

lemma Keyset.variants_inStep :
    Variant.InStep (Mirrors R m) Part.keyset.shape.table variants variants := by
  have hexpr := Expr.carries_ofDocument hR (m := m)
  refine .cons rfl rfl (Variant.follows_carrying _ _ ?_) <|
    .cons rfl rfl (Variant.follows_carrying _ _ ?_) <|
    .cons rfl rfl (Variant.follows_bare _ _) .nil
  · exact .required (.of (by simp)) hexpr (by simp)
  · exact .required (.required (.of (by simp)) hexpr (by simp)) hexpr (by decide)

lemma Keyset.carries_ofDocument : Carries (Mirrors R m (.one .keyset)) ofDocument ofDocument Eq :=
  hR.carries_asTagged rfl "Keyset" fun _ _ => variants_inStep hR

lemma SelectCase.carries_ofDocument :
    Carries (Mirrors R m (.one .selectCase)) ofDocument ofDocument Eq :=
  hR.carries_asRecord rfl "SelectCase" fun _ =>
    .required (.required (.of (by simp)) (hR.carries_asList fun _ => Keyset.carries_ofDocument hR)
      (by simp)) hR.carries_string (by decide)

lemma Transition.variants_inStep :
    Variant.InStep (Mirrors R m) Part.transition.shape.table variants variants := by
  refine .cons rfl rfl (Variant.follows_carrying _ _ ?_) <|
    .cons rfl rfl (Variant.follows_carrying _ _ ?_) .nil
  · exact .required (.of (by simp)) hR.carries_string (by simp)
  · exact .required (.required (.of (by simp))
      (hR.carries_asList fun _ => Expr.carries_ofDocument hR) (by simp))
      (hR.carries_asList fun _ => SelectCase.carries_ofDocument hR) (by decide)

end documents

end PacketSections
