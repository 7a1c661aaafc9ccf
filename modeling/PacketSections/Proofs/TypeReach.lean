import Mathlib
import PacketSections.Lowering.Sections
import PacketSections.Proofs.FlatNames

/-!
Lowering looks up no type that it cannot reach.

A reference reaches the names that are met on the way down through stacks and the fields of declared
types, which may lead back to where they started. Resolving a reference asks the table for the names
that it reaches and for no others, however many levels are resolved. Lowering resolves the types of
parameters and of local declarations; whatever it learns about an expression comes from these.
-/

namespace PacketSections

/-- The names that stand in the reference itself. -/
def TypeRef.names : TypeRef → List String
  | bits _ => []
  | bool => []
  | named name => [name]
  | stack element _ => element.names

namespace TypeTable

variable {types other : TypeTable}

/-- The name is met on the way down from the reference. -/
inductive Reaches (types : TypeTable) : TypeRef → String → Prop
  | named (name : String) : Reaches types (.named name) name
  | element {e : TypeRef} {size : UInt32} {name : String} (h : Reaches types e name) :
    Reaches types (.stack e size) name
  | field {owner name : String} {decl : TypeDecl} {f : FieldDecl}
    (hd : types.find? owner = some decl) (hf : f ∈ decl.fields) (h : Reaches types f.type name) :
    Reaches types (.named owner) name

/-- Names that are closed under the declared fields hold all that can be reached from them. -/
lemma Reaches.mem_of_closed {names : List String} {t : TypeRef} {name : String}
    (h : types.Reaches t name)
    (hclosed : ∀ owner ∈ names, ∀ decl ∈ types.find? owner, ∀ f ∈ decl.fields,
      f.type.names ⊆ names)
    (ht : t.names ⊆ names) : name ∈ names := by
  induction h with
  | named name => exact ht (by simp [TypeRef.names])
  | element _ ih => exact ih ht
  | @field owner _ decl f hd hf _ ih =>
    exact ih (hclosed owner (ht (by simp [TypeRef.names])) decl hd f hf)

/-- Tables that agree on what a reference reaches resolve it alike. -/
lemma resolveLevels_congr (n : ℕ) {t : TypeRef}
    (h : ∀ name, types.Reaches t name → types.find? name = other.find? name) :
    types.resolveLevels n t = other.resolveLevels n t := by
  induction n generalizing t with
  | zero => rfl
  | succ n ih =>
    cases t with
    | bits width => rfl
    | bool => rfl
    | stack e size =>
      rw [resolveLevels, resolveLevels, ih fun name hname => h name (.element hname)]
    | named name =>
      -- the declaration is the same, and its fields are resolved alike with one level less
      have hfields (decl : TypeDecl) (hd : types.find? name = some decl) :
          types.fieldsAt n decl.fields = other.fieldsAt n decl.fields := by
        refine List.map_congr_left fun f hf => ?_
        rw [ih fun m hm => h m (.field hd hf hm)]
      simp only [resolveLevels, ← h name (.named name)]
      cases hd : types.find? name with
      | none => rfl
      | some decl =>
        have hfill := hfields decl hd
        unfold fieldsAt at hfill
        cases decl with
        | external => rfl
        | header fields => exact congrArg (ResolvedType.aggregate .header name) hfill
        | struct fields => exact congrArg (ResolvedType.aggregate .struct name) hfill
        | headerUnion fields => exact congrArg (ResolvedType.aggregate .headerUnion name) hfill

lemma find?_eq_some_iff {name : String} {decl : TypeDecl} :
    types.find? name = some decl ↔ (name, decl) ∈ types.entries := by
  constructor
  · exact mem_of_find?
  · exact lookup_of_mem types.nodup

/-- Tables find the same declarations when they have the same ones, in whatever order. -/
lemma find?_eq_iff_perm : (∀ name, types.find? name = other.find? name) ↔
    types.entries.Perm other.entries := by
  have hnodup (t : TypeTable) : t.entries.Nodup := t.nodup.of_map _
  rw [List.perm_ext_iff_of_nodup (hnodup types) (hnodup other)]
  constructor
  · rintro h ⟨name, decl⟩
    rw [← find?_eq_some_iff, ← find?_eq_some_iff, h name]
  · intro h name
    refine Option.ext fun decl => ?_
    rw [find?_eq_some_iff, find?_eq_some_iff, h]

end TypeTable

namespace Lowering

open Text

variable {facts : Facts} {resolve : TypeRef → ResolvedType}

/-- The facts with another way of resolving references. -/
abbrev resolving (facts : Facts) (resolve : TypeRef → ResolvedType) : Facts :=
  { facts with resolve }

lemma lowerParams_resolving {ps : List Param}
    (h : ∀ p ∈ ps, resolve p.type = facts.resolve p.type) (t : Tuples) :
    lowerParams (resolving facts resolve) ps t = lowerParams facts ps t := by
  induction ps generalizing t with
  | nil => rfl
  | cons p ps ih =>
    rw [List.forall_mem_cons] at h
    have hp : lowerParam (resolving facts resolve) p = lowerParam facts p := by
      simp only [lowerParam, h.1]
      rfl
    simp only [lowerParams, hp]
    congr 1
    funext d
    cases d with
    | none => exact ih h.2 t
    | some d => exact ih h.2 (t.push d p.name)

lemma lowerLocals_resolving {ls : List LocalDecl}
    (h : ∀ l ∈ ls, resolve l.type = facts.resolve l.type) (sets : ValueSets) :
    lowerLocals (resolving facts resolve) ls sets = lowerLocals facts ls sets := by
  induction ls generalizing sets with
  | nil => rfl
  | cons l ls ih =>
    rw [List.forall_mem_cons] at h
    cases l with
    | valueSet name element size exported span =>
      have hl : resolve element = facts.resolve element := h.1
      simp only [lowerLocals, hl, ih h.2]
    | var name type initial span => simp only [lowerLocals, ih h.2]
    | inst name type span => simp only [lowerLocals, ih h.2]

lemma lowerStatements_resolving (storage : Storage) (ss : List Statement) :
    lowerStatements (resolving facts resolve) storage ss = lowerStatements facts storage ss := by
  induction ss with
  | nil => rfl
  | cons s ss ih =>
    have hs : lowerStatement (resolving facts resolve) storage s =
        lowerStatement facts storage s := by
      cases s <;> rfl
    rw [lowerStatements, hs, ih]
    rfl

lemma lowerTransition_resolving (storage : Storage) (t : Option Transition) :
    lowerTransition (resolving facts resolve) storage t = lowerTransition facts storage t := by
  have hcases (keys : List String) (cs : List SelectCase) :
      selectArms (resolving facts resolve) storage keys cs =
        selectArms facts storage keys cs := by
    induction cs with
    | nil => rfl
    | cons c cs ih =>
      have hc : caseCondition (resolving facts resolve) storage keys c =
          caseCondition facts storage keys c := rfl
      simp only [selectArms, ih, hc]
  match t with
  | none => rfl
  | some (.direct target) => rfl
  | some (.select keys cs) =>
    simp only [lowerTransition]
    rw [hcases]
    rfl

/-- States are lowered without resolving any reference. -/
lemma lowerStates_resolving (storage : Storage) (count ordinal : ℕ) (ss : List State) :
    lowerStates (resolving facts resolve) storage count ordinal ss =
      lowerStates facts storage count ordinal ss := by
  have hstate (s : State) (n : ℕ) :
      lowerState (resolving facts resolve) storage s n = lowerState facts storage s n := by
    simp only [lowerState, lowerStatements_resolving, lowerTransition_resolving]
  induction ss generalizing ordinal with
  | nil => rfl
  | cons s ss ih => simp only [lowerStates, hstate, ih]

lemma lower_resolving {u : ParserUnit}
    (h : ∀ e ∈ u.scope, resolve e.2 = facts.resolve e.2) :
    lower (resolving facts resolve) u = lower facts u := by
  have hparams : ∀ p ∈ u.params, resolve p.type = facts.resolve p.type :=
    fun p hp => h (p.name, p.type) (List.mem_append_left _ (List.mem_map_of_mem hp))
  have hlocals : ∀ l ∈ u.locals, resolve l.type = facts.resolve l.type :=
    fun l hl => h (l.name, l.type) (List.mem_append_right _ (List.mem_map_of_mem hl))
  simp only [lower, lowerTuples, lowerParams_resolving hparams, lowerLocals_resolving hlocals,
    lowerStates_resolving]

end Lowering

namespace ParserUnit

/-- The name is reached from the type of a parameter or of a local declaration. -/
def Reaches (u : ParserUnit) (name : String) : Prop :=
  ∃ e ∈ u.scope, u.types.Reaches e.2 name

lemma lower_congr_types {u : ParserUnit} {types : TypeTable}
    (h : ∀ name, u.Reaches name → u.types.find? name = types.find? name) :
    lower { u with types } = u.lower := by
  have hresolve : ∀ e ∈ u.scope, types.resolve e.2 = u.types.resolve e.2 := fun e he =>
    (TypeTable.resolveLevels_congr typeLevels fun name hname => h name ⟨e, he, hname⟩).symm
  -- names in scope have the same types, and with them all expressions and calls
  have hname : nameType? { u with types } = u.nameType? := by
    funext name
    change (u.scope.reverse.lookup name).map types.resolve =
      (u.scope.reverse.lookup name).map u.types.resolve
    cases hl : u.scope.reverse.lookup name with
    | none => rfl
    | some t =>
      obtain ⟨before, after, hsplit, -⟩ := List.lookup_eq_some_iff.mp hl
      have hmem : (name, t) ∈ u.scope := by
        rw [← List.mem_reverse, hsplit]
        simp
      exact congrArg some (hresolve _ hmem)
  have htype : typeOf { u with types } = u.typeOf := by
    funext e
    rw [typeOf, typeOf, hname]
  have hcall : call { u with types } = u.call := by
    funext method args
    simp only [call, htype]
  have hfacts : facts { u with types } = Lowering.resolving u.facts types.resolve := by
    simp only [facts, htype, hcall]
  rw [lower, lower, hfacts]
  exact Lowering.lower_resolving hresolve

/-- **Only types that can be reached matter**: parsers that differ in their types alone, and agree
on the names that can be reached, are lowered alike. So neither the order of the declarations nor
one that nothing refers to makes a difference. -/
theorem lower_reachable_types :
    (∀ u v : ParserUnit, v.name = u.name → v.params = u.params → v.locals = u.locals →
      v.states = u.states → (∀ name, u.Reaches name → u.types.find? name = v.types.find? name) →
      v.lower = u.lower) ∧
    (∀ (u : ParserUnit) (types : TypeTable), types.entries.Perm u.types.entries →
      lower { u with types } = u.lower) ∧
    ∀ (u : ParserUnit) (name : String) (decl : TypeDecl), ¬ u.Reaches name →
      lower { u with types := u.types.insert name decl } = u.lower := by
  refine ⟨fun u v hname hparams hlocals hstates h => ?_, fun u types hperm => ?_,
    fun u name decl hname => ?_⟩
  · have hv : v = { u with types := v.types } := by
      rw [← hname, ← hparams, ← hlocals, ← hstates]
    calc v.lower = lower { u with types := v.types } := congrArg lower hv
      _ = u.lower := lower_congr_types h
  · exact lower_congr_types fun m _ => (TypeTable.find?_eq_iff_perm.mpr hperm m).symm
  · refine lower_congr_types fun m hm => ?_
    have hne : m ≠ name := fun heq => hname (heq ▸ hm)
    rw [TypeTable.find?_insert, if_neg hne]

/-- A parser over the given types, whose parameter and value set refer to two of them. -/
def typedParser (types : TypeTable) : ParserUnit where
  name := "p"
  types
  params := [⟨"hdr", .write, .named "headers", none⟩]
  locals := [.valueSet "known" (.named "chain") 4 none none]
  states := [⟨"start", [.assign (.member (.path "hdr" none) "kind" none) (.path "known" none) none],
    some (.direct "accept"), none⟩, .bare "accept", .bare "reject"]

/-- A header, and two types that lead back to each other. -/
def cyclicTypes : TypeTable :=
  .ofList [("headers", .header [⟨"kind", .bits 8⟩]), ("chain", .struct [⟨"next", .named "link"⟩]),
    ("link", .struct [⟨"back", .stack (.named "chain") 2⟩]), ("spare", .external)]

/-- The same in another order, without `spare` and with a type that refers to the others. -/
def shuffledTypes : TypeTable :=
  .ofList [("link", .struct [⟨"back", .stack (.named "chain") 2⟩]),
    ("extra", .struct [⟨"all", .named "headers"⟩]), ("headers", .header [⟨"kind", .bits 8⟩]),
    ("chain", .struct [⟨"next", .named "link"⟩])]

lemma reaches_cyclicTypes {name : String} (h : (typedParser cyclicTypes).Reaches name) :
    name ∈ ["headers", "chain", "link"] := by
  obtain ⟨e, he, h⟩ := h
  have hroots : ∀ e ∈ (typedParser cyclicTypes).scope,
      e.2.names ⊆ ["headers", "chain", "link"] := by decide
  exact h.mem_of_closed (by decide) (hroots e he)

theorem lower_reachable_types_cyclic :
    (∀ name, (typedParser cyclicTypes).Reaches name →
      cyclicTypes.find? name = shuffledTypes.find? name) ∧
    (typedParser shuffledTypes).lower = (typedParser cyclicTypes).lower ∧
    ¬ (typedParser cyclicTypes).Reaches "more" ∧
    (typedParser (cyclicTypes.insert "more" .external)).lower =
      (typedParser cyclicTypes).lower := by
  have hagree : ∀ name, (typedParser cyclicTypes).Reaches name →
      cyclicTypes.find? name = shuffledTypes.find? name := by
    have hlisted : ∀ name ∈ ["headers", "chain", "link"],
        cyclicTypes.find? name = shuffledTypes.find? name := by decide
    exact fun name h => hlisted name (reaches_cyclicTypes h)
  have hmore : ¬ (typedParser cyclicTypes).Reaches "more" := fun h =>
    absurd (reaches_cyclicTypes h) (by decide)
  exact ⟨hagree,
    lower_reachable_types.1 (typedParser cyclicTypes) (typedParser shuffledTypes) rfl rfl rfl rfl
      hagree,
    hmore, lower_reachable_types.2.2 (typedParser cyclicTypes) "more" .external hmore⟩

end ParserUnit

end PacketSections
