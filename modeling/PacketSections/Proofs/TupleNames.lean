import Mathlib
import PacketSections.Proofs.FlatNames
import PacketSections.Proofs.TupleTable

/-!
When the names in a program are distinct.

Parameters may be named like the tuples that a program has anyway, and paths of different fields may
become the same when they are joined. Nothing refuses such a parser, and its program has two tuples,
or two fields of a tuple, of one name. Apart from these cases the names are distinct.
-/

namespace PacketSections

open Lowering

/-! ### Tuples -/

/-- No parameter is named like a tuple that the program has anyway. -/
def ParserUnit.Unreserved (facts : Facts) (u : ParserUnit) : Prop :=
  ∀ q ∈ u.tupled facts, q.name ≠ extractsName ∧
    (u.valueSets.isEmpty = false → q.name ≠ localName)

variable {facts : Facts} {u : ParserUnit} {p : Program}

/-- Instances clash exactly when a parameter has a reserved name. -/
lemma lower_instNames_nodup (h : (lower facts u).result = .ok p)
    (hparams : (u.params.map Param.name).Nodup) :
    (p.tupleInsts.map TupleInst.name).Nodup ↔ u.Unreserved facts := by
  have htupled : ((u.tupled facts).map Param.name).Nodup :=
    hparams.sublist (List.filter_sublist.map _)
  have hne : extractsName ≠ localName := by decide
  rw [lower_instNames h, List.nodup_append]
  unfold ParserUnit.Unreserved
  cases u.valueSets.isEmpty <;> simp [htupled, hne]

lemma lower_defNames_nodup (h : (lower facts u).result = .ok p)
    (hparams : (u.params.map Param.name).Nodup) :
    (p.tupleDefs.map TupleDef.name).Nodup ↔ u.Unreserved facts := by
  rw [lower_defNames h, List.nodup_map_iff fun _ _ => (String.append_left_inj "_t").mp]
  exact lower_instNames_nodup h hparams

/-! ### Fields -/

/-- The flat fields of a parameter. -/
def Param.flatFields (types : TypeTable) (q : Param) : List BitField :=
  (types.resolve q.type).flatten false

/-- No field goes on from the name of one that has parts, and none of a header is named like its
validity bit. -/
def TypeDecl.Apart (d : TypeDecl) : Prop :=
  (∀ f ∈ d.fields, f.type.hasParts = true → ∀ g ∈ d.fields,
    ¬ ResolvedType.Continues f.name g.name) ∧
  ∀ fields, d = .header fields → ∀ f ∈ fields, f.name ≠ validityName

/-- Fields that are declared apart stay so when their types are filled in. -/
lemma fieldsApart_fieldsAt {types : TypeTable} {n : ℕ} {kind : AggregateKind}
    {fields : List FieldDecl} (hn : (fields.map FieldDecl.name).Nodup)
    (ha : ∀ f ∈ fields, f.type.hasParts = true → ∀ g ∈ fields,
      ¬ ResolvedType.Continues f.name g.name)
    (hv : kind = .header → ∀ f ∈ fields, f.name ≠ validityName) :
    ResolvedType.FieldsApart kind (types.fieldsAt n fields) := by
  have hnames : (types.fieldsAt n fields).map Prod.fst = fields.map FieldDecl.name :=
    List.map_map
  refine ⟨by rwa [hnames], ?_, ?_⟩
  · intro f hf hparts g hg
    obtain ⟨d, hd, rfl⟩ := List.mem_map.mp hf
    obtain ⟨e, he, rfl⟩ := List.mem_map.mp hg
    exact ha d hd (TypeTable.hasParts_of_resolveLevels hparts) e he
  · intro hkind hmem
    rw [hnames] at hmem
    obtain ⟨f, hf, hname⟩ := List.mem_map.mp hmem
    exact hv hkind f hf hname

lemma TypeDecl.Apart.satisfies {d : TypeDecl} (hd : d.Apart)
    (hn : (d.fields.map FieldDecl.name).Nodup) (types : TypeTable) (n : ℕ) :
    d.Satisfies fun kind fields => ResolvedType.FieldsApart kind (types.fieldsAt n fields) := by
  obtain ⟨ha, hv⟩ := hd
  cases d with
  | header fields => exact fieldsApart_fieldsAt hn ha fun _ => hv fields rfl
  | struct fields => exact fieldsApart_fieldsAt hn ha (by simp)
  | headerUnion fields => exact fieldsApart_fieldsAt hn ha (by simp)
  | external => trivial

/-- The flat fields of a parameter have distinct names when fields are declared apart. -/
lemma flatFields_nodup {types : TypeTable}
    (hdecls : ∀ e ∈ types.entries, (e.2.fields.map FieldDecl.name).Nodup)
    (hapart : ∀ e ∈ types.entries, e.2.Apart) (q : Param) :
    ((q.flatFields types).map BitField.name).Nodup :=
  ResolvedType.flatten_nodup (TypeTable.everywhere_resolve
    (fun e he n => (hapart e he).satisfies (hdecls e he) types n) q.type)

/-- The tuples of a program, with the fields of each. -/
lemma lower_tupleDefs_flat {u : ParserUnit} {p : Program} (h : u.lower.result = .ok p) :
    ∃ fields : List BitField,
      p.tupleDefs = (u.tupled u.facts).map (fun q =>
          ⟨q.name ++ "_t", q.direction.text, .written (BitField.block (q.flatFields u.types))⟩) ++
        ⟨extractsType, "out", .fields [⟨"size", 32⟩]⟩ ::
          (if u.valueSets.isEmpty then [] else [⟨localType, "", .fields fields⟩]) ∧
      fields.map (fun f => (some f.name, some f.bits)) =
        u.valueSets.map (fun l => (l.controlName, (u.facts.resolve l.type).width)) ∧
      (fields.map BitField.name).Nodup := by
  obtain ⟨sets, hkeeps, -, hdefs, -⟩ := lower_tuples h
  exact ⟨sets.fields, hdefs, hkeeps.places, hkeeps.nodup⟩

/-- **When names are distinct.** Tuples and instances have distinct names exactly when no parameter
is named like the tuple of the extracted bits, nor like that of the value sets if there are any. The
fields of these two tuples have distinct names always, and those of the parameters when fields are
declared apart. -/
theorem lower_names_distinct {u : ParserUnit} {p : Program} (h : u.lower.result = .ok p)
    (hparams : (u.params.map Param.name).Nodup)
    (hdecls : ∀ e ∈ u.types.entries, (e.2.fields.map FieldDecl.name).Nodup) :
    ((p.tupleDefs.map TupleDef.name).Nodup ↔ u.Unreserved u.facts) ∧
    ((p.tupleInsts.map TupleInst.name).Nodup ↔ u.Unreserved u.facts) ∧
    (∃ fields : List BitField,
      p.tupleDefs = (u.tupled u.facts).map (fun q =>
          ⟨q.name ++ "_t", q.direction.text, .written (BitField.block (q.flatFields u.types))⟩) ++
        ⟨extractsType, "out", .fields [⟨"size", 32⟩]⟩ ::
          (if u.valueSets.isEmpty then [] else [⟨localType, "", .fields fields⟩]) ∧
      fields.map (fun f => (some f.name, some f.bits)) =
        u.valueSets.map (fun l => (l.controlName, (u.facts.resolve l.type).width))) ∧
    (∀ d ∈ p.tupleDefs, ∀ fields, d.body = .fields fields → (fields.map BitField.name).Nodup) ∧
    ((∀ e ∈ u.types.entries, e.2.Apart) →
      ∀ q ∈ u.tupled u.facts, ((q.flatFields u.types).map BitField.name).Nodup) := by
  obtain ⟨own, hdefs, hplaces, hnodup⟩ := lower_tupleDefs_flat h
  refine ⟨lower_defNames_nodup h hparams, lower_instNames_nodup h hparams,
    ⟨own, hdefs, hplaces⟩, ?_, fun hapart q _ => flatFields_nodup hdecls hapart q⟩
  intro d hd fields hbody
  rw [hdefs, List.mem_append, List.mem_cons] at hd
  rcases hd with hd | rfl | hd
  · -- the fields of a parameter are written out already
    obtain ⟨q, -, rfl⟩ := List.mem_map.mp hd
    cases hbody
  · obtain rfl := TupleBody.fields.inj hbody
    simp
  · split at hd
    · cases hd
    · obtain rfl := List.mem_singleton.mp hd
      obtain rfl := TupleBody.fields.inj hbody
      exact hnodup

/-- Names have underscores, and one goes on from another, but that one has no parts. -/
def apartParser : ParserUnit :=
  { sampleParser with
    types := .ofList
      [("packet_in", .external),
       ("tag_t", .header [⟨"kind", .bits 8⟩, ⟨"kind_of", .bits 4⟩, ⟨"more", .bits 4⟩]),
       ("headers_t", .struct [⟨"outer", .named "tag_t"⟩, ⟨"inner", .named "tag_t"⟩,
         ⟨"outermost_tag", .stack (.named "tag_t") 2⟩])] }

lemma apartParser_apart : ∀ e ∈ apartParser.types.entries, e.2.Apart := by
  have hentries : apartParser.types.entries =
      [("packet_in", .external),
       ("tag_t", .header [⟨"kind", .bits 8⟩, ⟨"kind_of", .bits 4⟩, ⟨"more", .bits 4⟩]),
       ("headers_t", .struct [⟨"outer", .named "tag_t"⟩, ⟨"inner", .named "tag_t"⟩,
         ⟨"outermost_tag", .stack (.named "tag_t") 2⟩])] := by
    decide
  rw [hentries]
  simp only [List.forall_mem_cons, List.not_mem_nil, false_imp_iff, implies_true, and_true]
  refine ⟨⟨by decide, by simp⟩, ⟨by decide, ?_⟩, by decide, by simp⟩
  rintro fields ⟨⟩
  decide

theorem lower_names_distinct_apart :
    ∃ p, apartParser.lower.result = .ok p ∧ (p.tupleDefs.map TupleDef.name).Nodup ∧
      (p.tupleInsts.map TupleInst.name).Nodup ∧
      ∀ q ∈ apartParser.tupled apartParser.facts,
        ((q.flatFields apartParser.types).map BitField.name).Nodup := by
  obtain ⟨p, hp⟩ : ∃ p, apartParser.lower.result = .ok p := ⟨_, rfl⟩
  have hclear : apartParser.Unreserved apartParser.facts := by
    unfold ParserUnit.Unreserved
    decide
  obtain ⟨hdefs, hinsts, -, -, hflat⟩ := lower_names_distinct hp (by decide) (by decide)
  exact ⟨p, hp, hdefs.mpr hclear, hinsts.mpr hclear, hflat apartParser_apart⟩

/-- A parameter is named like the tuple of the value sets, and two of its fields have paths that
join to one name. -/
def clashingParser : ParserUnit where
  name := "Clash"
  types := .ofList
    [("inner_t", .struct [⟨"b", .bits 8⟩]),
     ("outer_t", .struct [⟨"a", .named "inner_t"⟩, ⟨"a_b", .bits 16⟩])]
  params := [⟨"local", .write, .named "outer_t", none⟩]
  locals := [.valueSet "known" (.bits 8) 4 none none]
  states := [.bare "accept", .bare "reject"]

/-- The parser declares no name twice and is lowered; its program has two tuples, two instances and
two fields of one name. -/
theorem lower_clashing_names :
    (clashingParser.params.map Param.name).Nodup ∧
    (∀ e ∈ clashingParser.types.entries, (e.2.fields.map FieldDecl.name).Nodup) ∧
    ∃ p, clashingParser.lower.result = .ok p ∧
      p.tupleDefs.map TupleDef.name = ["local_t", "TopParser_extracts_t", "local_t"] ∧
      p.tupleInsts.map TupleInst.name = ["local", "TopParser_extracts", "local"] ∧
      ∃ q ∈ clashingParser.params, (p.tupleDefs.map fun d => d.body.text)[0]? =
          some (BitField.block (q.flatFields clashingParser.types)) ∧
        (q.flatFields clashingParser.types).map BitField.name = ["a_b", "a_b"] := by
  refine ⟨by decide, by decide, _, rfl, by decide, by decide, _, List.mem_cons_self .., ?_, ?_⟩ <;>
    decide

end PacketSections
