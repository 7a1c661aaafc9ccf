import Mathlib
import PacketSections.Typing.Facts

/-!
The names of flat fields.

A flat field is named by the path that leads to it, joined by underscores. Names may have some of
their own, so that two paths can be joined to one name: `a` followed by `b`, and `a_b`. This cannot
happen when no field goes on from the name of another one that has parts, and no header has a field
with the name of its validity bit. Names without underscores never go on from another one.
-/

namespace PacketSections

namespace ResolvedType

/-! ### Paths -/

mutual

/-- The paths to the fields of a type. -/
def paths : ResolvedType → List (List String)
  | bits _ => [[]]
  | bool => [[]]
  | aggregate .header _ fields => [validityName] :: fieldPaths fields
  | aggregate _ _ fields => fieldPaths fields
  | stack element size =>
    (List.range size.toNat).flatMap fun i => (paths element).map (toString i :: ·)
  | _ => []

def fieldPaths : List (String × ResolvedType) → List (List String)
  | [] => []
  | (name, t) :: fields => (paths t).map (name :: ·) ++ fieldPaths fields

end

/-- The names of the fields among leaves. -/
def fieldNames (leaves : List Leaf) : List String :=
  (leaves.filterMap Leaf.field?).map BitField.name

lemma fieldNames_append (as bs : List Leaf) :
    fieldNames (as ++ bs) = fieldNames as ++ fieldNames bs := by
  simp [fieldNames]

lemma fieldNames_flatMap {α : Type} (l : List α) (f : α → List Leaf) :
    fieldNames (l.flatMap f) = l.flatMap fun a => fieldNames (f a) := by
  induction l with
  | nil => rfl
  | cons a l ih => rw [List.flatMap_cons, fieldNames_append, ih, List.flatMap_cons]

mutual

/-- The fields of a type are named by its paths, in order. -/
lemma fieldNames_leavesAt (path : List String) : (t : ResolvedType) →
    fieldNames (leavesAt path t) = (paths t).map fun q => joinPath (path ++ q)
  | bits w => by simp [leavesAt, paths, fieldNames, Leaf.field?]
  | bool => by simp [leavesAt, paths, fieldNames, Leaf.field?]
  | aggregate .header _ fields => by
    have ih := fieldNames_fieldLeaves path fields
    simpa [leavesAt, paths, fieldNames, Leaf.field?] using ih
  | aggregate .struct _ fields => by
    simpa only [leavesAt, paths] using fieldNames_fieldLeaves path fields
  | aggregate .headerUnion _ fields => by
    simpa only [leavesAt, paths] using fieldNames_fieldLeaves path fields
  | stack element size => by
    simp only [leavesAt, paths, fieldNames_flatMap, List.map_flatMap, List.map_map]
    refine List.flatMap_congr fun i _ => ?_
    rw [fieldNames_leavesAt (path ++ [toString i]) element]
    simp [Function.comp_def]
  | packetSource => by simp [leavesAt, paths, fieldNames, Leaf.field?]
  | external _ => by simp [leavesAt, paths, fieldNames, Leaf.field?]
  | unknown _ => by simp [leavesAt, paths, fieldNames, Leaf.field?]

lemma fieldNames_fieldLeaves (path : List String) : (fields : List (String × ResolvedType)) →
    fieldNames (fieldLeaves path fields) = (fieldPaths fields).map fun q => joinPath (path ++ q)
  | [] => rfl
  | (name, t) :: fields => by
    rw [fieldLeaves, fieldPaths, fieldNames_append, fieldNames_leavesAt (path ++ [name]) t,
      fieldNames_fieldLeaves path fields]
    simp [Function.comp_def]

end

lemma fieldPaths_eq (fields : List (String × ResolvedType)) :
    fieldPaths fields = fields.flatMap fun f => (paths f.2).map (f.1 :: ·) := by
  induction fields with
  | nil => rfl
  | cons f fields ih => rw [fieldPaths, ih, List.flatMap_cons]

lemma flatten_names (t : ResolvedType) :
    (t.flatten false).map BitField.name = (paths t).map joinPath :=
  fieldNames_leavesAt [] t

/-! ### Joined paths -/

/-- `b` goes on from `a` after an underscore. -/
def Continues (a b : String) : Prop := a.toList ++ ['_'] <+: b.toList

instance (a b : String) : Decidable (Continues a b) :=
  inferInstanceAs (Decidable (_ <+: _))

/-- What is in the joined name after the first part. -/
def tailChars (p : List String) : List Char := if p = [] then [] else '_' :: (joinPath p).toList

lemma joinPath_cons (a : String) (p : List String) :
    (joinPath (a :: p)).toList = a.toList ++ tailChars p := by
  cases p with
  | nil => simp [joinPath, tailChars]
  | cons b p => simp [joinPath, tailChars, String.toList_intercalate]

/-- A name without underscores goes on from no other one. -/
lemma not_continues {b : String} (hb : '_' ∉ b.toList) (a : String) : ¬ Continues a b :=
  fun hcont => hb (hcont.subset (by simp))

/-- A part that is longer than another one goes on from it, if the joined names agree. -/
lemma continues_of_tail {a b : String} {p : List String} {z y : List Char}
    (hb : b.toList = a.toList ++ z) (hz : z ≠ []) (hp : tailChars p = z ++ y) :
    p ≠ [] ∧ Continues a b := by
  obtain ⟨c, z, rfl⟩ := List.exists_cons_of_ne_nil hz
  unfold tailChars at hp
  split at hp
  · simp at hp
  · next hp0 =>
    obtain ⟨rfl, -⟩ := List.cons.inj hp
    exact ⟨hp0, z, by simp [hb]⟩

/-- Joined names agree only if the first parts do, or if one of these goes on from the other. -/
lemma head_of_joinPath_eq {a b : String} {p q : List String}
    (h : joinPath (a :: p) = joinPath (b :: q)) :
    a = b ∨ (p ≠ [] ∧ Continues a b) ∨ (q ≠ [] ∧ Continues b a) := by
  have hchars : a.toList ++ tailChars p = b.toList ++ tailChars q := by
    rw [← joinPath_cons, ← joinPath_cons, h]
  rcases List.append_eq_append_iff.mp hchars with ⟨z, hb, hp⟩ | ⟨z, ha, hq⟩
  · by_cases hz : z = []
    · left
      exact (String.toList_inj.mp (by simpa [hz] using hb)).symm
    · exact .inr (.inl (continues_of_tail hb hz hp))
  · by_cases hz : z = []
    · left
      exact String.toList_inj.mp (by simpa [hz] using ha)
    · exact .inr (.inr (continues_of_tail ha hz hq))

lemma tail_of_joinPath_eq {a : String} {p q : List String} (hp : p ≠ []) (hq : q ≠ [])
    (h : joinPath (a :: p) = joinPath (a :: q)) : joinPath p = joinPath q := by
  have hchars : a.toList ++ tailChars p = a.toList ++ tailChars q := by
    rw [← joinPath_cons, ← joinPath_cons, h]
  have htail : tailChars p = tailChars q := List.append_cancel_left hchars
  rw [tailChars, if_neg hp, tailChars, if_neg hq] at htail
  exact String.toList_inj.mp (List.cons.inj htail).2

/-! ### Distinct names -/

/-- Whether there may be longer paths than the empty one. -/
def hasParts : ResolvedType → Bool
  | stack .. => true
  | aggregate .. => true
  | _ => false

lemma head_fieldPaths {fields : List (String × ResolvedType)} {q : List String}
    (h : q ∈ fieldPaths fields) : ∃ name r, q = name :: r ∧ name ∈ fields.map Prod.fst := by
  rw [fieldPaths_eq, List.mem_flatMap] at h
  obtain ⟨f, hf, hq⟩ := h
  obtain ⟨r, -, rfl⟩ := List.mem_map.mp hq
  exact ⟨f.1, r, rfl, List.mem_map_of_mem hf⟩

lemma nil_notMem_paths {t : ResolvedType} (ht : t.hasParts = true) : [] ∉ paths t := by
  have hfields (fields : List (String × ResolvedType)) : [] ∉ fieldPaths fields := by
    intro hmem
    obtain ⟨name, r, hq, -⟩ := head_fieldPaths hmem
    cases hq
  cases t with
  | stack element size => simp [paths]
  | aggregate kind name fields => cases kind <;> simp [paths, hfields]
  | _ => cases ht

lemma paths_sublist {t : ResolvedType} (ht : t.hasParts = false) : (paths t).Sublist [[]] := by
  cases t with
  | stack | aggregate => cases ht
  | _ => simp [paths]

lemma hasParts_of_mem {t : ResolvedType} {q : List String} (hq : q ∈ paths t) (hq0 : q ≠ []) :
    t.hasParts = true := by
  by_contra hno
  have hmem := (paths_sublist (by simpa using hno)).subset hq
  exact hq0 (List.mem_singleton.mp hmem)

/-- Names stay distinct behind a first part. -/
lemma joined_cons_nodup (name : String) {t : ResolvedType} (h : ((paths t).map joinPath).Nodup) :
    ((paths t).map fun q => joinPath (name :: q)).Nodup := by
  cases ht : t.hasParts with
  | false => exact (List.nodup_singleton _).sublist ((paths_sublist ht).map _)
  | true =>
    refine List.Nodup.map_on (fun p hp q hq heq => ?_) (List.Nodup.of_map _ h)
    have hp0 : p ≠ [] := fun h0 => nil_notMem_paths ht (h0 ▸ hp)
    have hq0 : q ≠ [] := fun h0 => nil_notMem_paths ht (h0 ▸ hq)
    exact List.inj_on_of_nodup_map h hp hq (tail_of_joinPath_eq hp0 hq0 heq)

/-- Names from different parts are different, unless one part goes on from another. -/
lemma joined_nodup {α : Type} {l : List α} {name : α → String} {t : α → ResolvedType}
    (hnames : (l.map name).Nodup)
    (hapart : ∀ a ∈ l, (t a).hasParts = true → ∀ b ∈ l, ¬ Continues (name a) (name b))
    (hrest : ∀ a ∈ l, ((paths (t a)).map joinPath).Nodup) :
    ((l.flatMap fun a => (paths (t a)).map (name a :: ·)).map joinPath).Nodup := by
  rw [List.map_flatMap, List.nodup_flatMap]
  constructor
  · intro a ha
    rw [List.map_map]
    exact joined_cons_nodup (name a) (hrest a ha)
  · have hpair : l.Pairwise fun a b => name a ≠ name b := List.pairwise_map.mp hnames
    refine hpair.imp_of_mem fun {a b} ha hb hne s hs hs' => ?_
    simp only [List.map_map, List.mem_map, Function.comp_apply] at hs hs'
    obtain ⟨p, hp, rfl⟩ := hs
    obtain ⟨q, hq, heq⟩ := hs'
    rcases head_of_joinPath_eq heq.symm with hab | ⟨hp0, hcont⟩ | ⟨hq0, hcont⟩
    · exact hne hab
    · exact hapart a ha (hasParts_of_mem hp hp0) b hb hcont
    · exact hapart b hb (hasParts_of_mem hq hq0) a ha hcont

/-- `P` holds of the kind and the fields of each aggregate in a type. -/
inductive Everywhere (P : AggregateKind → List (String × ResolvedType) → Prop) :
    ResolvedType → Prop
  | packetSource : Everywhere P packetSource
  | external (name : String) : Everywhere P (external name)
  | bits (width : UInt32) : Everywhere P (bits width)
  | bool : Everywhere P bool
  | unknown (what : String) : Everywhere P (unknown what)
  | stack {element : ResolvedType} {size : UInt32} (h : Everywhere P element) :
    Everywhere P (stack element size)
  | aggregate {kind : AggregateKind} {name : String} {fields : List (String × ResolvedType)}
    (here : P kind fields) (inside : ∀ f ∈ fields, Everywhere P f.2) :
    Everywhere P (aggregate kind name fields)

/-- The names of fields are distinct, as far as the fields themselves go. -/
lemma fieldPaths_joined_nodup {fields : List (String × ResolvedType)}
    (hnames : (fields.map Prod.fst).Nodup)
    (hapart : ∀ f ∈ fields, f.2.hasParts = true → ∀ g ∈ fields, ¬ Continues f.1 g.1)
    (hrest : ∀ f ∈ fields, ((paths f.2).map joinPath).Nodup) :
    ((fieldPaths fields).map joinPath).Nodup := by
  rw [fieldPaths_eq]
  exact joined_nodup hnames hapart hrest

/-- Names that tell fields apart, also when they are joined to longer ones. -/
structure FieldsApart (kind : AggregateKind) (fields : List (String × ResolvedType)) : Prop where
  distinct : (fields.map Prod.fst).Nodup
  apart : ∀ f ∈ fields, f.2.hasParts = true → ∀ g ∈ fields, ¬ Continues f.1 g.1
  validity : kind = .header → validityName ∉ fields.map Prod.fst

/-- The name of the validity bit has no underscore, and is that of a field only if declared. -/
lemma validity_notMem_joined {fields : List (String × ResolvedType)}
    (h : validityName ∉ fields.map Prod.fst) :
    joinPath [validityName] ∉ (fieldPaths fields).map joinPath := by
  intro hmem
  obtain ⟨q, hq, heq⟩ := List.mem_map.mp hmem
  obtain ⟨name, r, rfl, hname⟩ := head_fieldPaths hq
  rcases head_of_joinPath_eq heq with rfl | ⟨-, hcont⟩ | ⟨h0, -⟩
  · exact h hname
  · exact not_continues (by decide) name hcont
  · exact h0 rfl

lemma not_continues_repr (i j : ℕ) : ¬ Continues (toString i) (toString j) :=
  not_continues (by simp) _

lemma paths_joined_nodup {t : ResolvedType} (ht : t.Everywhere FieldsApart) :
    ((paths t).map joinPath).Nodup := by
  induction ht with
  | packetSource | external | unknown => simp [paths]
  | bits | bool => simp [paths]
  | @stack element size _ ih =>
    simp only [paths]
    refine joined_nodup (t := fun _ => element) ?_ (fun i _ _ j _ => not_continues_repr i j)
      fun _ _ => ih
    exact List.nodup_range.map fun _ _ => Nat.repr_inj.mp
  | @aggregate kind name fields here _ ih =>
    have hfields := fieldPaths_joined_nodup here.distinct here.apart ih
    cases kind with
    | header =>
      simp only [paths, List.map_cons, List.nodup_cons]
      exact ⟨validity_notMem_joined (here.validity rfl), hfields⟩
    | struct => simpa only [paths] using hfields
    | headerUnion => simpa only [paths] using hfields

/-- **Names apart stay distinct.** When the fields of each aggregate in a type are apart, the names
of its flat fields are distinct. -/
lemma flatten_nodup {t : ResolvedType} (ht : t.Everywhere FieldsApart) :
    ((t.flatten false).map BitField.name).Nodup := by
  rw [flatten_names]
  exact paths_joined_nodup ht

/-! ### Names without underscores -/

/-- Distinct names, none of which has an underscore. -/
structure PlainNames (fields : List (String × ResolvedType)) : Prop where
  distinct : (fields.map Prod.fst).Nodup
  plain : ∀ f ∈ fields, '_' ∉ f.1.toList

lemma PlainNames.apart {fields : List (String × ResolvedType)} (h : PlainNames fields) :
    ∀ f ∈ fields, f.2.hasParts = true → ∀ g ∈ fields, ¬ Continues f.1 g.1 :=
  fun f _ _ g hg => not_continues (h.plain g hg) f.1

/-- A header has no field with the name of its validity bit. -/
def ValidityFree (kind : AggregateKind) (fields : List (String × ResolvedType)) : Prop :=
  kind = .header → validityName ∉ fields.map Prod.fst

/-- No header in a type has a field with the name of a validity bit that is kept. With `bare`, the
type itself may have one. -/
def KeptValidityFree (t : ResolvedType) (bare : Bool) : Prop :=
  match bare, t with
  | true, aggregate .header _ fields => ∀ f ∈ fields, f.2.Everywhere ValidityFree
  | _, t => t.Everywhere ValidityFree

lemma everywhere_fieldsApart {t : ResolvedType} (hnames : t.Everywhere fun _ => PlainNames)
    (hvalidity : t.Everywhere ValidityFree) : t.Everywhere FieldsApart := by
  induction hnames with
  | packetSource => exact .packetSource
  | external name => exact .external name
  | bits width => exact .bits width
  | bool => exact .bool
  | unknown what => exact .unknown what
  | stack _ ih =>
    cases hvalidity with
    | stack hvalidity => exact .stack (ih hvalidity)
  | aggregate here _ ih =>
    cases hvalidity with
    | aggregate hfree inside =>
      exact .aggregate ⟨here.distinct, here.apart, hfree⟩ fun f hf => ih f hf (inside f hf)

/-- The fields of a header that goes without its validity bit. -/
lemma fieldLeaves_nodup {fields : List (String × ResolvedType)} (here : PlainNames fields)
    (hinside : ∀ f ∈ fields, f.2.Everywhere FieldsApart) :
    (fieldNames (fieldLeaves [] fields)).Nodup := by
  rw [fieldNames_fieldLeaves]
  exact fieldPaths_joined_nodup here.distinct here.apart fun f hf =>
    paths_joined_nodup (hinside f hf)

/-- **Plain names do not collide.** When the fields of each aggregate in a type have distinct names
without underscores, and none is named like a validity bit that is kept beside it, the names of the
flat fields are distinct. -/
theorem flatten_names_nodup (t : ResolvedType) (bare : Bool)
    (hnames : t.Everywhere fun _ => PlainNames) (hvalidity : t.KeptValidityFree bare) :
    ((t.flatten bare).map BitField.name).Nodup := by
  cases bare with
  | false => exact flatten_nodup (everywhere_fieldsApart hnames hvalidity)
  | true =>
    -- only a header has a validity bit of its own to go without
    cases t with
    | aggregate kind name fields =>
      cases kind with
      | header =>
        cases hnames with
        | aggregate here inside =>
          exact fieldLeaves_nodup here fun f hf =>
            everywhere_fieldsApart (inside f hf) (hvalidity f hf)
      | struct | headerUnion => exact flatten_nodup (everywhere_fieldsApart hnames hvalidity)
    | _ => exact flatten_nodup (everywhere_fieldsApart hnames hvalidity)

/-- A header with a field that is named like an index, and one that takes no bits. -/
def innerHeader : ResolvedType :=
  aggregate .header "inner_t" [("1", bits 4), ("rest", unknown "rest_t"), ("on", bool)]

def pairFields : List (String × ResolvedType) := [("a", bits 8), ("b", innerHeader)]

/-- A field that is named like a validity bit, one without a name, and a stack of stacks. -/
def markedFields : List (String × ResolvedType) :=
  [(validityName, bits 1), ("", aggregate .headerUnion "either_t" [("1", innerHeader)]),
    ("1", stack (stack (aggregate .struct "pair_t" pairFields) 2) 11)]

lemma everywhere_markedFields {P : AggregateKind → List (String × ResolvedType) → Prop}
    (hinner : P .header [("1", bits 4), ("rest", unknown "rest_t"), ("on", bool)])
    (heither : P .headerUnion [("1", innerHeader)]) (hpair : P .struct pairFields) :
    ∀ f ∈ markedFields, f.2.Everywhere P := by
  have hheader : innerHeader.Everywhere P := by
    refine .aggregate hinner ?_
    rw [List.forall_mem_cons, List.forall_mem_cons, List.forall_mem_singleton]
    exact ⟨.bits 4, .unknown "rest_t", .bool⟩
  have hinside : ∀ f ∈ pairFields, f.2.Everywhere P := by
    rw [pairFields, List.forall_mem_cons, List.forall_mem_singleton]
    exact ⟨.bits 8, hheader⟩
  rw [markedFields, List.forall_mem_cons, List.forall_mem_cons, List.forall_mem_singleton]
  exact ⟨.bits 1, .aggregate heither (List.forall_mem_singleton.mpr hheader),
    .stack (.stack (.aggregate hpair hinside))⟩

/-- A header that goes without its validity bit may have a field of that name. -/
theorem flatten_names_nodup_marked :
    ((aggregate .header "marked_t" markedFields).Everywhere fun _ => PlainNames) ∧
      (aggregate .header "marked_t" markedFields).KeptValidityFree true ∧
      (((aggregate .header "marked_t" markedFields).flatten true).map BitField.name).Nodup := by
  have hnames : (aggregate .header "marked_t" markedFields).Everywhere fun _ => PlainNames :=
    .aggregate ⟨by decide, by decide⟩ <|
      everywhere_markedFields ⟨by decide, by decide⟩ ⟨by decide, by decide⟩ ⟨by decide, by decide⟩
  have hvalidity : (aggregate .header "marked_t" markedFields).KeptValidityFree true :=
    everywhere_markedFields (fun _ => by decide) nofun nofun
  exact ⟨hnames, hvalidity, flatten_names_nodup _ true hnames hvalidity⟩

end ResolvedType

/-! ### Declared names -/

/-- Whether a field of this type may have parts. -/
def TypeRef.hasParts : TypeRef → Bool
  | bits _ => false
  | bool => false
  | _ => true

/-- `P` holds of the kind and the fields that are declared. -/
def TypeDecl.Satisfies (P : AggregateKind → List FieldDecl → Prop) : TypeDecl → Prop
  | header fields => P .header fields
  | struct fields => P .struct fields
  | headerUnion fields => P .headerUnion fields
  | external => True

/-- Where names are distinct, an entry is found by its name. -/
lemma lookup_of_mem {α : Type} {l : List (String × α)} (hl : (l.map Prod.fst).Nodup)
    {e : String × α} (he : e ∈ l) : l.lookup e.1 = some e.2 := by
  obtain ⟨before, after, rfl⟩ := List.append_of_mem he
  refine List.lookup_eq_some_iff.mpr ⟨before, after, rfl, fun x hx => ?_⟩
  rw [List.map_append, List.nodup_append] at hl
  have hne := hl.2.2 x.1 (List.mem_map_of_mem hx) e.1 (by simp)
  simpa using hne.symm

namespace TypeTable

lemma mem_of_find? {types : TypeTable} {name : String} {decl : TypeDecl}
    (h : types.find? name = some decl) : (name, decl) ∈ types.entries := by
  obtain ⟨before, after, heq, -⟩ := List.lookup_eq_some_iff.mp h
  rw [heq]
  simp

/-- The fields that are declared, with `n` levels of their types. -/
def fieldsAt (types : TypeTable) (n : ℕ) (fields : List FieldDecl) :
    List (String × ResolvedType) :=
  fields.map fun f => (f.name, types.resolveLevels n f.type)

lemma hasParts_of_resolveLevels {types : TypeTable} {n : ℕ} {t : TypeRef}
    (h : (types.resolveLevels n t).hasParts = true) : t.hasParts = true := by
  cases n with
  | zero => cases h
  | succ n =>
    cases t with
    | bits | bool => cases h
    | _ => rfl

/-- What holds of all declarations holds of all aggregates in a type. -/
lemma everywhere_resolveLevels {P : AggregateKind → List (String × ResolvedType) → Prop}
    {types : TypeTable}
    (h : ∀ e ∈ types.entries, ∀ n, e.2.Satisfies fun kind fields =>
      P kind (types.fieldsAt n fields))
    (n : ℕ) (t : TypeRef) : (types.resolveLevels n t).Everywhere P := by
  induction n generalizing t with
  | zero => exact .unknown _
  | succ n ih =>
    have hinside (fields : List FieldDecl) :
        ∀ f ∈ types.fieldsAt n fields, f.2.Everywhere P := by
      intro f hf
      obtain ⟨d, -, rfl⟩ := List.mem_map.mp hf
      exact ih d.type
    cases t with
    | bits width => exact .bits width
    | bool => exact .bool
    | stack element size => exact .stack (ih element)
    | named name =>
      simp only [resolveLevels]
      cases hd : types.find? name with
      | none => exact .unknown _
      | some decl =>
        have hdecl := h _ (mem_of_find? hd) n
        cases decl with
        | external =>
          simp only
          split
          · exact .packetSource
          · exact .external _
        | header fields => exact .aggregate hdecl (hinside fields)
        | struct fields => exact .aggregate hdecl (hinside fields)
        | headerUnion fields => exact .aggregate hdecl (hinside fields)

lemma everywhere_resolve {P : AggregateKind → List (String × ResolvedType) → Prop}
    {types : TypeTable}
    (h : ∀ e ∈ types.entries, ∀ n, e.2.Satisfies fun kind fields =>
      P kind (types.fieldsAt n fields))
    (t : TypeRef) : (types.resolve t).Everywhere P :=
  everywhere_resolveLevels h typeLevels t

end TypeTable

end PacketSections
