import Mathlib
import PacketSections.Proofs.FixedWidths
import PacketSections.Proofs.FlatNames

/-!
How deep types are resolved.

Declared types may lead back to themselves, so that filling in declarations need not come to an end,
and it is cut off at a fixed depth. The height of a reference tells how deep its declarations go. A
reference that is not too high is unfolded completely, and all that is unknown in the result are
names without a declaration. A higher one is cut off, and what has been cut off is written where it
was met. Both follow from what is met on a path: the result has, at each path that leads nowhere too
deep, what is left of the levels for the reference at the end of the path.
-/

namespace PacketSections

/-- The kind of the aggregates that are declared. -/
def TypeDecl.kind? : TypeDecl → Option AggregateKind
  | header _ => some .header
  | struct _ => some .struct
  | headerUnion _ => some .headerUnion
  | external => none

/-! ### Paths -/

namespace ResolvedType

/-- The element of a stack, the types of the fields of an aggregate. -/
def parts : ResolvedType → List ResolvedType
  | stack element _ => [element]
  | aggregate _ _ fields => fields.map Prod.snd
  | _ => []

/-- What a path leads to; each step of it is the place of a part. -/
def nodeAt? : ResolvedType → List ℕ → Option ResolvedType
  | t, [] => some t
  | t, i :: path => t.parts[i]?.bind fun u => u.nodeAt? path

lemma fieldNodes_eq (fields : List (String × ResolvedType)) :
    fieldNodes fields = fields.flatMap fun f => f.2.nodes := by
  induction fields with
  | nil => rfl
  | cons f fields ih => rw [fieldNodes, ih, List.flatMap_cons]

lemma nodes_subset {t u : ResolvedType} (h : u ∈ t.parts) : u.nodes ⊆ t.nodes := by
  intro v hv
  cases t with
  | stack element size =>
    obtain rfl := List.mem_singleton.mp h
    exact List.mem_cons_of_mem _ hv
  | aggregate kind name fields =>
    obtain ⟨f, hf, rfl⟩ := List.mem_map.mp h
    refine List.mem_cons_of_mem _ ?_
    rw [fieldNodes_eq]
    exact List.mem_flatMap.mpr ⟨f, hf, hv⟩
  | _ => cases h

lemma mem_nodes_of_nodeAt? {t u : ResolvedType} {path : List ℕ} (h : t.nodeAt? path = some u) :
    u ∈ t.nodes := by
  induction path generalizing t with
  | nil =>
    obtain rfl := Option.some.inj h
    cases t <;> simp [nodes]
  | cons i path ih =>
    obtain ⟨v, hv, hu⟩ := Option.bind_eq_some_iff.mp h
    exact nodes_subset (List.mem_of_getElem? hv) (ih hu)

/-- A type with something unknown in it has no width. -/
lemma width_of_unknown {t : ResolvedType} {path : List ℕ} {what : String}
    (h : t.nodeAt? path = some (unknown what)) : t.width = none := by
  cases hw : t.width with
  | none => rfl
  | some w =>
    have hstatic := ((width_eq_some t w).mp hw).1
    cases hstatic _ (mem_nodes_of_nodeAt? h)

end ResolvedType

namespace TypeTable

variable {types : TypeTable} {t : TypeRef} {n : ℕ}

/-- The element of a stack, the types of the fields that are declared for a name. -/
def parts (types : TypeTable) : TypeRef → List TypeRef
  | .bits _ => []
  | .bool => []
  | .stack element _ => [element]
  | .named name =>
    match types.find? name with
    | none => []
    | some decl => decl.fields.map FieldDecl.type

/-- The reference that a path leads to; each step of it is the place of a part. -/
def refAt? (types : TypeTable) : TypeRef → List ℕ → Option TypeRef
  | t, [] => some t
  | t, i :: path => (types.parts t)[i]?.bind fun u => types.refAt? u path

/-! ### Heights -/

/-- What has no parts has height zero. What has parts is one higher than the highest of them. -/
noncomputable def heightStep (types : TypeTable) : (TypeRef → ℕ∞) →o (TypeRef → ℕ∞) where
  toFun height t := if types.parts t = [] then 0 else 1 + ⨆ u ∈ types.parts t, height u
  monotone' := by
    intro f g hfg t
    dsimp only
    split
    · exact le_rfl
    · gcongr
      exact hfg _

/-- The height of a reference, which is infinite when its parts never come to an end. -/
noncomputable def height (types : TypeTable) : TypeRef → ℕ∞ := types.heightStep.lfp

lemma height_eq (types : TypeTable) (t : TypeRef) :
    types.height t =
      if types.parts t = [] then 0 else 1 + ⨆ u ∈ types.parts t, types.height u :=
  congrFun types.heightStep.map_lfp.symm t

lemma height_le_zero : types.height t ≤ 0 ↔ types.parts t = [] := by
  rw [height_eq]
  split <;> simp_all

lemma height_le_succ : types.height t ≤ (n + 1 : ℕ) ↔ ∀ u ∈ types.parts t, types.height u ≤ n := by
  rw [height_eq]
  split
  · next h => simp [h]
  · rw [Nat.cast_add, Nat.cast_one, add_comm (n : ℕ∞), ENat.add_le_add_iff_left ENat.one_ne_top,
      iSup₂_le_iff]

/-- No path is as long when there is no path in a part that is shorter by one. -/
lemma refAt?_eq_none_succ :
    (∀ path, path.length = n + 1 → types.refAt? t path = none) ↔
      ∀ u ∈ types.parts t, ∀ path, path.length = n → types.refAt? u path = none := by
  constructor
  · intro h u hu path hpath
    obtain ⟨i, hi⟩ := List.mem_iff_getElem?.mp hu
    have hnone := h (i :: path) (by rw [List.length_cons, hpath])
    rwa [refAt?, hi] at hnone
  · intro h path hpath
    obtain ⟨i, path, rfl⟩ := List.exists_cons_of_length_eq_add_one hpath
    rw [refAt?, Option.bind_eq_none_iff]
    exact fun u hu => h u (List.mem_of_getElem? hu) path (Nat.succ.inj hpath)

/-- The height is the length of the longest paths. -/
lemma height_le_iff :
    types.height t ≤ n ↔ ∀ path, path.length = n + 1 → types.refAt? t path = none := by
  induction n generalizing t with
  | zero =>
    rw [Nat.cast_zero, height_le_zero, refAt?_eq_none_succ]
    constructor
    · intro hparts u hu
      rw [hparts] at hu
      cases hu
    · intro h
      refine List.eq_nil_iff_forall_not_mem.mpr fun u hu => ?_
      cases h u hu [] rfl
  | succ n ih =>
    rw [height_le_succ, refAt?_eq_none_succ]
    simp only [ih]

/-! ### What is resolved -/

lemma resolveLevels_of_kind? {name : String} {decl : TypeDecl} {kind : AggregateKind}
    (hd : types.find? name = some decl) (hk : decl.kind? = some kind) :
    types.resolveLevels (n + 1) (.named name) =
      .aggregate kind name (types.fieldsAt n decl.fields) := by
  rw [resolveLevels, hd]
  cases decl with
  | external => cases hk
  | _ =>
    obtain rfl := Option.some.inj hk
    rfl

/-- The parts of what is resolved are resolved with one level less. -/
lemma parts_resolveLevels (n : ℕ) (t : TypeRef) :
    (types.resolveLevels (n + 1) t).parts = (types.parts t).map (types.resolveLevels n) := by
  cases t with
  | bits | bool | stack => rfl
  | named name =>
    rw [parts]
    cases hd : types.find? name with
    | none => simp [resolveLevels, hd, ResolvedType.parts]
    | some decl =>
      cases hk : decl.kind? with
      | none =>
        cases decl with
        | external =>
          simp only [resolveLevels, hd, TypeDecl.fields, List.map_nil]
          split <;> rfl
        | _ => cases hk
      | some kind =>
        rw [resolveLevels_of_kind? hd hk]
        simp [ResolvedType.parts, fieldsAt]

/-- A path leads to the reference at its end, with the levels that are left. -/
lemma nodeAt?_resolveLevels (k : ℕ) (path : List ℕ) (t : TypeRef) :
    (types.resolveLevels (path.length + k) t).nodeAt? path =
      (types.refAt? t path).map (types.resolveLevels k) := by
  induction path generalizing t with
  | nil => simp [ResolvedType.nodeAt?, refAt?]
  | cons i path ih =>
    have hlen : (i :: path).length + k = path.length + k + 1 := by
      rw [List.length_cons]
      omega
    rw [hlen, ResolvedType.nodeAt?, parts_resolveLevels, List.getElem?_map, refAt?]
    cases (types.parts t)[i]? with
    | none => rfl
    | some u => exact ih u

/-- Nothing lies deeper than the levels that are resolved. -/
lemma length_le_of_nodeAt? {path : List ℕ} {node : ResolvedType}
    (h : (types.resolveLevels n t).nodeAt? path = some node) : path.length ≤ n := by
  induction path generalizing n t with
  | nil => exact Nat.zero_le n
  | cons i path ih =>
    obtain ⟨u, hu, hnode⟩ := Option.bind_eq_some_iff.mp h
    cases n with
    | zero => cases hu
    | succ n =>
      rw [parts_resolveLevels, List.getElem?_map, Option.map_eq_some_iff] at hu
      obtain ⟨v, -, rfl⟩ := hu
      exact Nat.succ_le_succ (ih hnode)

lemma undeclared_of_unknown {what : String}
    (h : types.resolveLevels (n + 1) t = .unknown what) :
    t = .named what ∧ types.find? what = none := by
  cases t with
  | bits | bool | stack => cases h
  | named name =>
    cases hd : types.find? name with
    | none =>
      simp only [resolveLevels, hd, ResolvedType.unknown.injEq] at h
      exact ⟨by rw [h], by rw [← h, hd]⟩
    | some decl =>
      cases decl with
      | external =>
        simp only [resolveLevels, hd] at h
        split at h <;> cases h
      | _ =>
        rw [resolveLevels_of_kind? hd rfl] at h
        cases h

/-! ### Complete unfoldings -/

/-- The type has all that is declared for the reference and, on and on, for its parts. -/
inductive Unfolds (types : TypeTable) : TypeRef → ResolvedType → Prop
  | bits (width : UInt32) : Unfolds types (.bits width) (.bits width)
  | bool : Unfolds types .bool .bool
  | stack {element : TypeRef} {r : ResolvedType} {size : UInt32}
    (inside : Unfolds types element r) : Unfolds types (.stack element size) (.stack r size)
  | undeclared {name : String} (hd : types.find? name = none) :
    Unfolds types (.named name) (.unknown name)
  | packetSource (hd : types.find? packetSourceName = some .external) :
    Unfolds types (.named packetSourceName) .packetSource
  | external {name : String} (hd : types.find? name = some .external)
    (hname : name ≠ packetSourceName) : Unfolds types (.named name) (.external name)
  | aggregate {name : String} {decl : TypeDecl} {kind : AggregateKind}
    {r : FieldDecl → ResolvedType} (hd : types.find? name = some decl)
    (hk : decl.kind? = some kind) (inside : ∀ f ∈ decl.fields, Unfolds types f.type (r f)) :
    Unfolds types (.named name) (.aggregate kind name (decl.fields.map fun f => (f.name, r f)))

/-- There is only one complete unfolding. -/
lemma Unfolds.unique {r s : ResolvedType} (hr : types.Unfolds t r) (hs : types.Unfolds t s) :
    r = s := by
  induction hr generalizing s with
  | bits | bool =>
    cases hs
    rfl
  | stack _ ih =>
    cases hs with
    | stack inside => rw [ih inside]
  | undeclared hd => cases hs <;> simp_all
  | packetSource hd => cases hs <;> simp_all [TypeDecl.kind?]
  | external hd hname => cases hs <;> simp_all [TypeDecl.kind?]
  | aggregate hd hk _ ih =>
    cases hs with
    | undeclared hd' => simp_all
    | packetSource hd' | external hd' =>
      obtain rfl := Option.some.inj (hd.symm.trans hd')
      cases hk
    | aggregate hd' hk' inside =>
      obtain rfl := Option.some.inj (hd.symm.trans hd')
      obtain rfl := Option.some.inj (hk.symm.trans hk')
      congr 1
      exact List.map_congr_left fun f hf => by rw [ih f hf (inside f hf)]

/-- One more level completes what is complete in all parts. -/
lemma unfolds_succ (h : ∀ u ∈ types.parts t, types.Unfolds u (types.resolveLevels n u)) :
    types.Unfolds t (types.resolveLevels (n + 1) t) := by
  cases t with
  | bits width => exact .bits width
  | bool => exact .bool
  | stack element size => exact .stack (h element (by simp [parts]))
  | named name =>
    cases hd : types.find? name with
    | none =>
      simp only [resolveLevels, hd]
      exact .undeclared hd
    | some decl =>
      rw [parts, hd] at h
      cases hk : decl.kind? with
      | none =>
        cases decl with
        | external =>
          simp only [resolveLevels, hd]
          split
          · next hname =>
            subst hname
            exact .packetSource hd
          · next hname => exact .external hd hname
        | _ => cases hk
      | some kind =>
        rw [resolveLevels_of_kind? hd hk]
        exact .aggregate hd hk fun f hf => h f.type (List.mem_map_of_mem hf)

/-- A reference is complete with one level more than it is high. -/
lemma unfolds_resolveLevels (h : types.height t ≤ n) :
    types.Unfolds t (types.resolveLevels (n + 1) t) := by
  induction n generalizing t with
  | zero =>
    rw [Nat.cast_zero, height_le_zero] at h
    exact unfolds_succ (by simp [h])
  | succ n ih =>
    rw [height_le_succ] at h
    exact unfolds_succ fun u hu => ih (h u hu)

/-- **Resolution is exact up to its limit.** What is resolved ends at depth 33. A reference that is
at most 32 high is unfolded completely, and what is unknown in the result are names without a
declaration, in the places where they are referred to. Of any other reference something is cut off
at depth 33, where the result says what it was, and the result has no width. -/
theorem resolve_exact (types : TypeTable) (t : TypeRef) :
    (∀ path node, (types.resolve t).nodeAt? path = some node → path.length ≤ 33) ∧
    (types.height t ≤ 32 →
      (∀ r, types.Unfolds t r ↔ types.resolve t = r) ∧
      ∀ path what, (types.resolve t).nodeAt? path = some (.unknown what) →
        types.refAt? t path = some (.named what) ∧ types.find? what = none) ∧
    (32 < types.height t →
      (∃ path u, path.length = 33 ∧ types.refAt? t path = some u ∧
        (types.resolve t).nodeAt? path = some (.unknown u.text)) ∧
      (types.resolve t).width = none) := by
  refine ⟨fun path node h => length_le_of_nodeAt? h, fun hheight => ⟨fun r => ?_, ?_⟩,
    fun hheight => ?_⟩
  · have hcomplete : types.Unfolds t (types.resolve t) := unfolds_resolveLevels hheight
    exact ⟨hcomplete.unique, fun hr => hr ▸ hcomplete⟩
  · intro path what hwhat
    -- no path is so long that nothing is left of the levels
    have hlen : path.length ≤ typeLevels := length_le_of_nodeAt? hwhat
    obtain ⟨k, hk⟩ := Nat.exists_eq_add_of_le hlen
    rw [resolve, hk, nodeAt?_resolveLevels, Option.map_eq_some_iff] at hwhat
    obtain ⟨u, hu, hwhat⟩ := hwhat
    cases k with
    | zero =>
      have hnone := height_le_iff.mp hheight path (by rw [Nat.add_zero] at hk; exact hk.symm)
      rw [hnone] at hu
      cases hu
    | succ k =>
      obtain ⟨rfl, hd⟩ := undeclared_of_unknown hwhat
      exact ⟨hu, hd⟩
  · have hdeep : ¬ types.height t ≤ (32 : ℕ) := not_le.mpr hheight
    rw [height_le_iff] at hdeep
    push Not at hdeep
    obtain ⟨path, hlen, hpath⟩ := hdeep
    obtain ⟨u, hu⟩ := Option.ne_none_iff_exists'.mp hpath
    have hcut : (types.resolve t).nodeAt? path = some (.unknown u.text) := by
      have hnode : (types.resolveLevels (path.length + 0) t).nodeAt? path =
          (types.refAt? t path).map (types.resolveLevels 0) := nodeAt?_resolveLevels 0 path t
      rwa [hlen, hu] at hnode
    exact ⟨⟨path, u, hlen, hu, hcut⟩, ResolvedType.width_of_unknown hcut⟩

/-- Bits in that many stacks. -/
def nested : ℕ → TypeRef
  | 0 => .bits 8
  | n + 1 => .stack (nested n) 2

lemma height_nested (types : TypeTable) (n : ℕ) : types.height (nested n) = n := by
  induction n with
  | zero =>
    rw [height_eq]
    simp [nested, parts]
  | succ n ih =>
    rw [height_eq]
    simp [nested, parts, ih, add_comm]

/-- A type that has itself as a field. -/
def ringTypes : TypeTable :=
  .ofList [("ring_t", .struct [⟨"mark", .bits 8⟩, ⟨"next", .named "ring_t"⟩])]

lemma not_height_ring_le (n : ℕ) : ¬ ringTypes.height (.named "ring_t") ≤ n := by
  have hnext : TypeRef.named "ring_t" ∈ ringTypes.parts (.named "ring_t") := by decide
  induction n with
  | zero =>
    rw [Nat.cast_zero, height_le_zero]
    exact List.ne_nil_of_mem hnext
  | succ n ih =>
    rw [height_le_succ]
    exact fun h => ih (h _ hnext)

/-- Bits in 32 stacks are resolved, in 33 stacks they are not, and a ring never is. -/
theorem resolve_exact_nested :
    ringTypes.Unfolds (nested 32) (ringTypes.resolve (nested 32)) ∧
    (∃ path u, path.length = 33 ∧ ringTypes.refAt? (nested 33) path = some u ∧
      (ringTypes.resolve (nested 33)).nodeAt? path = some (.unknown u.text)) ∧
    (ringTypes.resolve (.named "ring_t")).width = none := by
  have hlow : ringTypes.height (nested 32) ≤ 32 := (height_nested _ 32).le
  have hhigh : 32 < ringTypes.height (nested 33) := by
    rw [height_nested]
    exact Nat.cast_lt.mpr (Nat.lt_succ_self 32)
  have hring : 32 < ringTypes.height (.named "ring_t") := not_le.mp (not_height_ring_le 32)
  exact ⟨(((resolve_exact _ _).2.1 hlow).1 _).mpr rfl, ((resolve_exact _ _).2.2 hhigh).1,
    ((resolve_exact _ _).2.2 hring).2⟩

end TypeTable

end PacketSections
