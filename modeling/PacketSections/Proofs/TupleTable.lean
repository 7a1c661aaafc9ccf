import Mathlib
import PacketSections.Proofs.FlatNames
import PacketSections.Proofs.Simulation

/-!
The tuples of a program and where the value sets are kept.

A parameter with fields has a tuple of its own, and all value sets share one, with a field for each.
The names of these fields are distinct, so that each path leads to one value set only, although a
name may be declared more than once.
-/

namespace PacketSections

open Lowering

variable {facts : Facts}

/-! ### Parameters -/

namespace Param

/-- Whether the parameter has fields, and is kept in a tuple. -/
def isTupled (facts : Facts) (p : Param) : Bool := (facts.resolve p.type).asAggregate.isSome

def tuple (facts : Facts) (p : Param) : TupleDef :=
  ⟨p.name ++ "_t", p.direction.text, .written (facts.layout (facts.resolve p.type) false).text⟩

end Param

lemma lowerParam_result {p : Param} {d : Option TupleDef}
    (h : (lowerParam facts p).result = .ok d) :
    d = if p.isTupled facts then some (p.tuple facts) else none := by
  unfold Param.isTupled Param.tuple
  cases hr : facts.resolve p.type with
  | packetSource =>
    simp only [lowerParam, hr, Pass.bind_ok_iff, Pass.note_result, Pass.pure_result,
      Except.ok.injEq, exists_const, true_and] at h
    rw [← h]
    rfl
  | aggregate kind name fields =>
    simp only [lowerParam, hr, Pass.bind_ok_iff, Pass.note_result, Pass.pure_result,
      layoutOf_result, Except.ok.injEq, exists_eq_left', exists_const, true_and] at h
    rw [← h]
    rfl
  | _ => simp [lowerParam, hr] at h

/-- The parameters with fields add their tuples, in order. -/
lemma lowerParams_push {ps : List Param} {t t' : Tuples}
    (h : (lowerParams facts ps t).result = .ok t') :
    t'.defs = t.defs ++ (ps.filter (Param.isTupled facts)).map (Param.tuple facts) ∧
    t'.insts =
      t.insts ++ (ps.filter (Param.isTupled facts)).map fun p => ⟨p.name ++ "_t", p.name⟩ := by
  induction ps generalizing t with
  | nil =>
    simp only [lowerParams, Pass.pure_result, Except.ok.injEq] at h
    simp [h]
  | cons p ps ih =>
    simp only [lowerParams, Pass.bind_ok_iff] at h
    obtain ⟨d, hd, hps⟩ := h
    rw [lowerParam_result hd] at hps
    cases hp : p.isTupled facts with
    | true =>
      simp only [hp, if_true] at hps
      obtain ⟨hdefs, hinsts⟩ := ih hps
      simp [hdefs, hinsts, hp, Tuples.push, Param.tuple]
    | false =>
      simp only [hp, Bool.false_eq_true, if_false] at hps
      obtain ⟨hdefs, hinsts⟩ := ih hps
      simp [hdefs, hinsts, hp]

/-! ### Value sets -/

namespace LocalDecl

def isValueSet (l : LocalDecl) : Bool := l.controlName.isSome

/-- The name and the width of the field for a value set. -/
def place (facts : Facts) (l : LocalDecl) : Option String × Option UInt32 :=
  (l.controlName, (facts.resolve l.type).width)

end LocalDecl

/-- The value sets among the declarations have been given their fields. -/
structure Lowering.ValueSets.Keeps (facts : Facts) (ls : List LocalDecl) (sets : ValueSets) :
    Prop where
  places : sets.fields.map (fun f => (some f.name, some f.bits)) =
    (ls.filter LocalDecl.isValueSet).map (LocalDecl.place facts)
  owners : sets.owners.map Prod.fst = sets.fields.map BitField.name
  nodup : (sets.fields.map BitField.name).Nodup

lemma lowerLocals_other {l : LocalDecl} (hl : l.isValueSet = false) (ls : List LocalDecl)
    (sets : ValueSets) : (lowerLocals facts (l :: ls) sets).result =
      (lowerLocals facts ls sets).result := by
  cases l with
  | valueSet => simp [LocalDecl.isValueSet, LocalDecl.controlName] at hl
  | var => rfl
  | inst => rfl

/-- A value set finds its name free and its elements of a fixed width. -/
lemma lowerLocals_valueSet {l : LocalDecl} (hl : l.isValueSet = true) {ls : List LocalDecl}
    {sets out : ValueSets} (h : (lowerLocals facts (l :: ls) sets).result = .ok out) :
    ∃ field path, l.place facts = (some field.name, some field.bits) ∧
      field.name ∉ sets.owners.map Prod.fst ∧
      (lowerLocals facts ls ⟨sets.owners ++ [(field.name, l.name)], sets.fields ++ [field],
        sets.storage.insert l.name path⟩).result = .ok out := by
  cases l with
  | var => simp [LocalDecl.isValueSet, LocalDecl.controlName] at hl
  | inst => simp [LocalDecl.isValueSet, LocalDecl.controlName] at hl
  | valueSet name element size exported span =>
    simp only [lowerLocals] at h
    split at h
    · simp at h
    · next hfree =>
      split at h
      · simp at h
      · next width hwidth =>
        simp only [Pass.bind_ok_iff, Pass.note_result, exists_const, true_and] at h
        refine ⟨⟨exported.getD name, width⟩, _, ?_, ?_, h⟩
        · simp [LocalDecl.place, LocalDecl.controlName, LocalDecl.type, hwidth]
        · rw [List.lookup_eq_none_iff] at hfree
          intro hmem
          obtain ⟨e, he, heq⟩ := List.mem_map.mp hmem
          have hne : exported.getD name ≠ e.1 := by simpa using hfree e he
          exact hne heq.symm

/-- What one value set adds. -/
lemma Lowering.ValueSets.Keeps.push {before : List LocalDecl} {sets : ValueSets}
    (hk : sets.Keeps facts before) {l : LocalDecl} (hl : l.isValueSet = true) {field : BitField}
    (hp : l.place facts = (some field.name, some field.bits))
    (hfree : field.name ∉ sets.owners.map Prod.fst) (storage : Storage) :
    ValueSets.Keeps facts (before ++ [l])
      ⟨sets.owners ++ [(field.name, l.name)], sets.fields ++ [field], storage⟩ where
  places := by simp [hk.places, hl, hp]
  owners := by simp [hk.owners]
  nodup := by
    rw [hk.owners] at hfree
    rw [List.map_append, List.map_singleton, ← List.concat_eq_append, List.nodup_concat]
    exact ⟨hfree, hk.nodup⟩

lemma lowerLocals_keeps {before ls : List LocalDecl} {sets out : ValueSets}
    (hk : sets.Keeps facts before) (h : (lowerLocals facts ls sets).result = .ok out) :
    out.Keeps facts (before ++ ls) := by
  induction ls generalizing before sets with
  | nil =>
    simp only [lowerLocals, Pass.pure_result, Except.ok.injEq] at h
    rwa [← h, List.append_nil]
  | cons l ls ih =>
    rw [List.append_cons]
    cases hl : l.isValueSet with
    | true =>
      obtain ⟨field, path, hp, hfree, hls⟩ := lowerLocals_valueSet hl h
      exact ih (hk.push hl hp hfree _) hls
    | false =>
      rw [lowerLocals_other hl] at h
      refine ih ⟨?_, hk.owners, hk.nodup⟩ h
      rw [hk.places, List.filter_append, List.filter_singleton, hl]
      simp

/-! ### Paths -/

namespace Storage

def names (s : Storage) : List String := s.entries.map Prod.fst

/-- One path after the other. -/
def insertAll (s : Storage) (es : List (String × String)) : Storage :=
  es.foldl (fun s e => s.insert e.1 e.2) s

lemma find?_eq_none_iff {s : Storage} {name : String} : s.find? name = none ↔ name ∉ s.names := by
  unfold find? names
  rw [List.lookup_eq_none_iff, List.mem_map]
  constructor
  · rintro h ⟨e, he, rfl⟩
    simpa using h e he
  · intro h e he
    have hne : e.1 ≠ name := fun heq => h ⟨e, he, heq⟩
    simpa using hne.symm

lemma names_insert (s : Storage) (name path : String) :
    (s.insert name path).names = if name ∈ s.names then s.names else s.names ++ [name] := by
  unfold insert
  cases hf : s.find? name with
  | none =>
    rw [if_neg (find?_eq_none_iff.mp hf)]
    simp [names]
  | some p =>
    have hmem : name ∈ s.names := by
      by_contra hno
      rw [find?_eq_none_iff.mpr hno] at hf
      cases hf
    rw [if_pos hmem]

/-- Names are there in the order in which they come first. -/
lemma names_insertAll (s : Storage) (es : List (String × String)) :
    (s.insertAll es).names =
      s.names ++ ((es.map Prod.fst).filter fun name => name ∉ s.names).eraseDups := by
  induction es generalizing s with
  | nil => simp [insertAll]
  | cons e es ih =>
    have hstep : s.insertAll (e :: es) = (s.insert e.1 e.2).insertAll es := rfl
    rw [hstep, ih, names_insert, List.map_cons]
    by_cases hmem : e.1 ∈ s.names
    · rw [if_pos hmem, List.filter_cons_of_neg (by simpa using hmem)]
    · have hrest : (es.map Prod.fst).filter (fun name => name ∉ s.names ++ [e.1]) =
          (es.map Prod.fst).filter (fun name => !name == e.1 && decide (name ∉ s.names)) := by
        apply List.filter_congr
        intro name _
        rw [Bool.eq_iff_iff]
        simp [and_comm]
      rw [if_neg hmem, List.filter_cons_of_pos (by simpa using hmem), List.eraseDups_cons,
        List.filter_filter, List.append_assoc, List.singleton_append, hrest]

lemma nodup_insertAll {s : Storage} (hs : s.names.Nodup) (es : List (String × String)) :
    (s.insertAll es).names.Nodup := by
  induction es generalizing s with
  | nil => exact hs
  | cons e es ih =>
    refine ih (s := s.insert e.1 e.2) ?_
    rw [names_insert]
    split
    · exact hs
    · next hmem =>
      rw [← List.concat_eq_append, List.nodup_concat]
      exact ⟨hmem, hs⟩

lemma find?_insertAll (s : Storage) (es : List (String × String)) (name : String) :
    (s.insertAll es).find? name = (s.find? name).or (es.lookup name) := by
  induction es generalizing s with
  | nil => simp [insertAll]
  | cons e es ih =>
    have hstep : s.insertAll (e :: es) = (s.insert e.1 e.2).insertAll es := rfl
    rw [hstep, ih, find?_insert, Option.or_assoc, List.lookup_cons]
    by_cases hname : name = e.1
    · simp [hname]
    · have hb : (name == e.1) = false := by simpa using hname
      simp [hname, hb]

lemma find?_of_mem {s : Storage} (hs : s.names.Nodup) {e : String × String} (he : e ∈ s.entries) :
    s.find? e.1 = some e.2 :=
  lookup_of_mem hs he

end Storage

namespace LocalDecl

/-- The path to the values of a value set. -/
def path? (l : LocalDecl) : Option String := l.controlName.map fun name => localName ++ "." ++ name

lemma entry?_eq (l : LocalDecl) : l.entry? = l.path?.map fun path => (l.name, path) := by
  cases l <;> rfl

lemma controlName_inj {l l' : LocalDecl} (h : l.path? = l'.path?) :
    l.controlName = l'.controlName :=
  Option.map_injective (fun _ _ => (String.append_right_inj _).mp) h

lemma path?_isSome (l : LocalDecl) : l.path?.isSome = l.isValueSet := by
  simp [path?, isValueSet]

lemma names_entries (ls : List LocalDecl) :
    (ls.filterMap entry?).map Prod.fst = (ls.filter isValueSet).map name := by
  induction ls with
  | nil => rfl
  | cons l ls ih =>
    have hsome := l.path?_isSome
    rw [List.filterMap_cons, List.filter_cons, entry?_eq, ← hsome]
    cases l.path? <;> simp [ih]

/-- The first value set of a name is the one that is found. -/
lemma lookup_entries (ls : List LocalDecl) (name : String) :
    (ls.filterMap entry?).lookup name =
      ((ls.filter isValueSet).find? fun l => l.name == name).bind path? := by
  induction ls with
  | nil => rfl
  | cons l ls ih =>
    have hsome := l.path?_isSome
    rw [List.filterMap_cons, List.filter_cons, entry?_eq, ← hsome]
    cases hp : l.path? with
    | none => simpa using ih
    | some path =>
      by_cases hname : l.name = name
      · simp [hname, hp]
      · have hb : (name == l.name) = false := by simpa using fun h => hname h.symm
        simpa [List.lookup_cons, hb, hname] using ih

end LocalDecl

/-! ### All tuples -/

namespace ParserUnit

/-- The parameters that are kept in tuples. -/
def tupled (facts : Facts) (u : ParserUnit) : List Param := u.params.filter (Param.isTupled facts)

def valueSets (u : ParserUnit) : List LocalDecl := u.locals.filter LocalDecl.isValueSet

lemma storage_names (u : ParserUnit) :
    u.storage.names = (u.valueSets.map LocalDecl.name).eraseDups := by
  have h : u.storage.names = _ :=
    Storage.names_insertAll .empty (u.locals.filterMap LocalDecl.entry?)
  rw [h, LocalDecl.names_entries]
  simp [Storage.names, Storage.empty, valueSets]

lemma storage_nodup (u : ParserUnit) : u.storage.names.Nodup :=
  Storage.nodup_insertAll (s := .empty) .nil _

lemma storage_find? (u : ParserUnit) (name : String) :
    u.storage.find? name = (u.valueSets.find? fun l => l.name == name).bind LocalDecl.path? := by
  have h : u.storage.find? name = _ :=
    Storage.find?_insertAll .empty (u.locals.filterMap LocalDecl.entry?) name
  rw [h, LocalDecl.lookup_entries]
  rfl

end ParserUnit

/-- What the tuples and the paths are, in terms of the declarations. -/
lemma lower_tuples {u : ParserUnit} {p : Program} (h : (lower facts u).result = .ok p) :
    ∃ sets : ValueSets, sets.Keeps facts u.locals ∧ p.storage = u.storage ∧
      p.tupleDefs = (u.tupled facts).map (Param.tuple facts) ++ extractsTuple ::
        (if u.valueSets.isEmpty then [] else [⟨localType, "", .fields sets.fields⟩]) ∧
      p.tupleInsts = (u.tupled facts).map (fun q => ⟨q.name ++ "_t", q.name⟩) ++
        ⟨extractsType, extractsName⟩ ::
          (if u.valueSets.isEmpty then [] else [⟨localType, localName⟩]) := by
  obtain ⟨t, ht, -, hpdefs, hpinsts, hstorage⟩ := lower_parts h
  rw [hpdefs, hpinsts]
  simp only [lowerTuples, Pass.bind_ok_iff] at ht
  obtain ⟨params, hparams, sets, hsets, ht⟩ := ht
  obtain ⟨hdefs, hinsts⟩ := lowerParams_push hparams
  have hstart : ValueSets.Keeps facts [] ⟨[], [], .empty⟩ := ⟨rfl, rfl, .nil⟩
  have hkeeps : sets.Keeps facts u.locals := lowerLocals_keeps hstart hsets
  have hempty : sets.fields.isEmpty = u.valueSets.isEmpty := by
    have := congrArg List.isEmpty hkeeps.places
    rwa [List.isEmpty_map, List.isEmpty_map] at this
  refine ⟨sets, hkeeps, hstorage, ?_⟩
  rw [hempty] at ht
  cases he : u.valueSets.isEmpty <;>
  · simp only [he, if_true, Bool.false_eq_true, if_false, Pass.pure_result, Except.ok.injEq] at ht
    simp [← ht, Tuples.push, hdefs, hinsts, Tuples.empty, ParserUnit.tupled, extractsTuple]

lemma lower_instNames {u : ParserUnit} {p : Program} (h : (lower facts u).result = .ok p) :
    p.tupleInsts.map TupleInst.name = (u.tupled facts).map Param.name ++ extractsName ::
      (if u.valueSets.isEmpty then [] else [localName]) := by
  obtain ⟨sets, -, -, -, hinsts⟩ := lower_tuples h
  rw [hinsts]
  split <;> simp

/-- Tuples are named after their instances. -/
lemma lower_defNames {u : ParserUnit} {p : Program} (h : (lower facts u).result = .ok p) :
    p.tupleDefs.map TupleDef.name = (p.tupleInsts.map TupleInst.name).map (· ++ "_t") := by
  obtain ⟨sets, -, -, hdefs, -⟩ := lower_tuples h
  have hextracts : extractsType = extractsName ++ "_t" := by decide
  have hlocal : localType = localName ++ "_t" := by decide
  rw [lower_instNames h, hdefs]
  split <;> simp [Param.tuple, extractsTuple, hextracts, hlocal]

lemma lower_instTypes {u : ParserUnit} {p : Program} (h : (lower facts u).result = .ok p) :
    p.tupleInsts.map TupleInst.type = p.tupleDefs.map TupleDef.name := by
  obtain ⟨sets, -, -, hdefs, hinsts⟩ := lower_tuples h
  rw [hdefs, hinsts]
  split <;> simp [Param.tuple, extractsTuple]

lemma Lowering.ValueSets.Keeps.controlNames {u : ParserUnit} {sets : ValueSets}
    (hk : sets.Keeps facts u.locals) :
    sets.fields.map (some ∘ BitField.name) = u.valueSets.map LocalDecl.controlName := by
  have h := congrArg (List.map Prod.fst) hk.places
  rwa [List.map_map, List.map_map] at h

/-- The names under which value sets are filled in are distinct. -/
lemma Lowering.ValueSets.Keeps.controlNames_nodup {u : ParserUnit} {sets : ValueSets}
    (hk : sets.Keeps facts u.locals) : (u.valueSets.map LocalDecl.controlName).Nodup := by
  have h := hk.nodup.map (Option.some_injective String)
  rwa [List.map_map, hk.controlNames] at h

/-- An entry belongs to the first value set of its name. -/
lemma storage_entry {u : ParserUnit} {e : String × String} (he : e ∈ u.storage.entries) :
    ∃ l, (u.valueSets.find? fun l => l.name == e.1) = some l ∧ l.path? = some e.2 := by
  have hfind := Storage.find?_of_mem u.storage_nodup he
  rw [u.storage_find?] at hfind
  exact Option.bind_eq_some_iff.mp hfind

lemma storage_paths_nodup {u : ParserUnit} {sets : ValueSets} (hk : sets.Keeps facts u.locals) :
    (u.storage.entries.map Prod.snd).Nodup := by
  refine List.Nodup.map_on ?_ (List.Nodup.of_map _ u.storage_nodup)
  intro e he e' he' hpath
  obtain ⟨l, hl, hlp⟩ := storage_entry he
  obtain ⟨l', hl', hlp'⟩ := storage_entry he'
  -- one path, so one name to be filled in under, so one value set, so one name
  have hcontrol : l.controlName = l'.controlName :=
    LocalDecl.controlName_inj (by rw [hlp, hlp', hpath])
  have hsame : l = l' := List.inj_on_of_nodup_map hk.controlNames_nodup
    (List.mem_of_find?_eq_some hl) (List.mem_of_find?_eq_some hl') hcontrol
  have hname : l.name = e.1 := by simpa using List.find?_some hl
  have hname' : l'.name = e'.1 := by simpa using List.find?_some hl'
  exact Prod.ext (by rw [← hname, ← hname', hsame]) hpath

/-- A path ends in the name of a field. -/
lemma storage_field {u : ParserUnit} {sets : ValueSets} (hk : sets.Keeps facts u.locals)
    {e : String × String} (he : e ∈ u.storage.entries) :
    ∃ f ∈ sets.fields, e.2 = localName ++ "." ++ f.name := by
  obtain ⟨l, hl, hpath⟩ := storage_entry he
  obtain ⟨name, hname, hpath⟩ := Option.map_eq_some_iff.mp hpath
  have hmem : some name ∈ sets.fields.map (some ∘ BitField.name) := by
    rw [hk.controlNames, ← hname]
    exact List.mem_map_of_mem (List.mem_of_find?_eq_some hl)
  obtain ⟨f, hf, hfname⟩ := List.mem_map.mp hmem
  exact ⟨f, hf, by rw [← hpath, Option.some.inj hfname]⟩

/-- **The tables of tuples and paths.** There is a tuple for each parameter with fields, one for the
extracted bits, and one for the value sets if there are any; each has one instance, named like the
tuple without `_t`. The value sets have fields of distinct names, in the order of their declaration.
Each name of a value set has one path, which leads to the field of the first value set of that name,
and no two names share a path. -/
theorem lower_tuple_table {facts : Facts} {u : ParserUnit} {p : Program}
    (h : (lower facts u).result = .ok p) :
    p.tupleDefs.length =
      (u.tupled facts).length + 1 + (if u.valueSets.isEmpty then 0 else 1) ∧
    p.tupleInsts.length = p.tupleDefs.length ∧
    (∀ (i : ℕ) (d : TupleDef) (n : TupleInst),
      p.tupleDefs[i]? = some d → p.tupleInsts[i]? = some n →
        n.type = d.name ∧ d.name = n.name ++ "_t") ∧
    p.tupleInsts.map TupleInst.name = (u.tupled facts).map Param.name ++ extractsName ::
      (if u.valueSets.isEmpty then [] else [localName]) ∧
    (∃ fields : List BitField,
      p.tupleDefs = (u.tupled facts).map (Param.tuple facts) ++ extractsTuple ::
        (if u.valueSets.isEmpty then [] else [⟨localType, "", .fields fields⟩]) ∧
      fields.map (fun f => (some f.name, some f.bits)) =
        u.valueSets.map (fun l => (l.controlName, (facts.resolve l.type).width)) ∧
      (fields.map BitField.name).Nodup ∧
      ∀ e ∈ p.storage.entries, ∃ f ∈ fields, e.2 = localName ++ "." ++ f.name) ∧
    p.storage.entries.map Prod.fst = (u.valueSets.map LocalDecl.name).eraseDups ∧
    (∀ e ∈ p.storage.entries, ∃ l, (u.valueSets.find? fun l => l.name == e.1) = some l ∧
      l.controlName.map (fun name => localName ++ "." ++ name) = some e.2) ∧
    (p.storage.entries.map Prod.snd).Nodup := by
  obtain ⟨sets, hkeeps, hstorage, hdefs, -⟩ := lower_tuples h
  have htypes := lower_instTypes h
  have hnames := lower_defNames h
  have hlen : p.tupleInsts.length = p.tupleDefs.length := by
    simpa using congrArg List.length htypes
  rw [hstorage]
  refine ⟨?_, hlen, ?_, lower_instNames h,
    ⟨sets.fields, hdefs, hkeeps.places, hkeeps.nodup, fun e => storage_field hkeeps⟩,
    u.storage_names, fun e => storage_entry, storage_paths_nodup hkeeps⟩
  · rw [hdefs]
    split <;> simp [Nat.add_assoc]
  · intro i d n hd hn
    have htype := congrArg (·[i]?) htypes
    have hname := congrArg (·[i]?) hnames
    exact ⟨by simpa [hd, hn] using htype, by simpa [hd, hn] using hname⟩

/-- One name is declared twice, to be filled in under two names. -/
def doubledParser : ParserUnit :=
  { sampleParser with
    locals :=
      [.valueSet "known" (.bits 8) 4 (some "known_kinds") none, .var "count" (.bits 32) none none,
       .valueSet "more" (.named "tag_t") 4 none none,
       .valueSet "known" .bool 2 none none] }

theorem lower_tuple_table_doubled :
    ∃ p, (lower doubledParser.facts doubledParser).result = .ok p ∧ p.tupleDefs.length = 3 ∧
      p.tupleInsts.map TupleInst.name = ["hdr", "TopParser_extracts", "local"] ∧
      p.storage.entries.map Prod.fst = ["known", "more"] ∧
      (p.storage.entries.map Prod.snd).Nodup := by
  obtain ⟨p, hp⟩ : ∃ p, (lower doubledParser.facts doubledParser).result = .ok p := ⟨_, rfl⟩
  obtain ⟨hlen, -, -, hinsts, -, hnames, -, hpaths⟩ := lower_tuple_table hp
  exact ⟨p, hp, hlen, hinsts, hnames.trans (by decide), hpaths⟩

end PacketSections
