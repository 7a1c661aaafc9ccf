import Mathlib
import PacketSections.Proofs.TupleTable

/-!
The field of a value set and the type of its name.

Both are found by name, but from opposite ends. The path of a name leads to the field of the first
value set of that name, whose width is that of its values; as an expression, the name stands for the
last declaration, which hides those before it. So the two agree when the name is declared once, and
otherwise when the two declarations happen to have one width.
-/

namespace PacketSections

open Lowering

namespace ParserUnit

/-- The value set to whose field the path of a name leads. -/
def firstSet? (u : ParserUnit) (name : String) : Option LocalDecl :=
  u.valueSets.find? fun l => l.name == name

/-- The local declaration that a name stands for, as the last one hides the others. -/
def visible? (u : ParserUnit) (name : String) : Option LocalDecl :=
  u.locals.reverse.find? fun l => l.name == name

variable {u : ParserUnit} {name : String}

lemma firstSet?_spec {l : LocalDecl} (h : u.firstSet? name = some l) :
    l ∈ u.valueSets ∧ l.name = name :=
  ⟨List.mem_of_find?_eq_some h, by simpa using List.find?_some h⟩

lemma visible?_spec {l : LocalDecl} (h : u.visible? name = some l) :
    l ∈ u.locals ∧ l.name = name :=
  ⟨List.mem_reverse.mp (List.mem_of_find?_eq_some h), by simpa using List.find?_some h⟩

/-- A name that has a value set stands for a local declaration, though maybe for another one. -/
lemma exists_visible? {l : LocalDecl} (h : u.firstSet? name = some l) :
    ∃ l', u.visible? name = some l' := by
  obtain ⟨hmem, hname⟩ := firstSet?_spec h
  apply Option.isSome_iff_exists.mp
  apply List.find?_isSome.mpr
  exact ⟨l, List.mem_reverse.mpr (List.mem_filter.mp hmem).1, by simpa using hname⟩

/-- There is no other one if the name is declared once. -/
lemma visible?_of_count {l l' : LocalDecl} (h : u.firstSet? name = some l)
    (h' : u.visible? name = some l') (hone : (u.locals.map LocalDecl.name).count name = 1) :
    l = l' := by
  obtain ⟨hmem, hname⟩ := firstSet?_spec h
  obtain ⟨hmem', hname'⟩ := visible?_spec h'
  rw [List.count_eq_countP, List.countP_map, List.countP_eq_length_filter] at hone
  obtain ⟨only, honly⟩ := List.length_eq_one_iff.mp hone
  have hall : ∀ d ∈ u.locals, d.name = name → d = only := by
    intro d hd hdname
    have hfilter : d ∈ [only] := by
      rw [← honly]
      exact List.mem_filter.mpr ⟨hd, by simpa using hdname⟩
    exact List.mem_singleton.mp hfilter
  rw [hall l (List.mem_filter.mp hmem).1 hname, hall l' hmem' hname']

lemma lookup_locals (ls : List LocalDecl) (name : String) :
    (ls.map fun l => (l.name, l.type)).lookup name =
      (ls.find? fun l => l.name == name).map LocalDecl.type := by
  induction ls with
  | nil => rfl
  | cons l ls ih =>
    rw [List.map_cons, List.lookup_cons, List.find?_cons, ih]
    by_cases hname : l.name = name
    · simp [hname]
    · have hb : (name == l.name) = false := by simpa using fun h => hname h.symm
      have hb' : (l.name == name) = false := by simpa using hname
      rw [hb, hb']

/-- Local declarations hide the parameters too. -/
lemma typeOf_visible {l : LocalDecl} (h : u.visible? name = some l) (span : Option Span) :
    u.typeOf (.path name span) = u.types.resolve l.type := by
  have hfound : u.scope.reverse.lookup name = some l.type := by
    have hlocals := lookup_locals u.locals.reverse name
    have hfind : (u.locals.reverse.find? fun l => l.name == name) = some l := h
    rw [hfind, List.map_reverse, Option.map_some] at hlocals
    rw [scope, List.reverse_append, List.lookup_append, hlocals, Option.some_or]
  unfold typeOf Expr.typeIn nameType?
  rw [hfound]
  rfl

end ParserUnit

/-! ### Fields -/

lemma filter_name_eq {fields : List BitField} (hn : (fields.map BitField.name).Nodup)
    {f : BitField} (hf : f ∈ fields) : fields.filter (fun g => g.name == f.name) = [f] := by
  obtain ⟨before, after, rfl⟩ := List.append_of_mem hf
  rw [List.map_append, List.map_cons, List.nodup_append, List.nodup_cons] at hn
  obtain ⟨-, ⟨hafter, -⟩, hbefore⟩ := hn
  have hnone : before.filter (fun g => g.name == f.name) = [] := by
    rw [List.filter_eq_nil_iff]
    intro g hg
    simpa using hbefore g.name (List.mem_map_of_mem hg) f.name (List.mem_cons_self ..)
  have hnone' : after.filter (fun g => g.name == f.name) = [] := by
    rw [List.filter_eq_nil_iff]
    intro g hg
    have hne : g.name ≠ f.name := fun heq => hafter (heq ▸ List.mem_map_of_mem hg)
    simpa using hne
  rw [List.filter_append, hnone, List.filter_cons_of_pos (by simp), hnone', List.nil_append]

/-- A value set has a field, under the name it is filled in under and as wide as its values. -/
lemma Lowering.ValueSets.Keeps.field {facts : Facts} {u : ParserUnit} {sets : ValueSets}
    (hk : sets.Keeps facts u.locals) {l : LocalDecl} (hl : l ∈ u.valueSets) :
    ∃ f ∈ sets.fields, l.controlName = some f.name ∧
      (facts.resolve l.type).width = some f.bits := by
  have hmem : l.place facts ∈ sets.fields.map (fun f => (some f.name, some f.bits)) := by
    rw [hk.places]
    exact List.mem_map_of_mem hl
  obtain ⟨f, hf, hplace⟩ := List.mem_map.mp hmem
  obtain ⟨hname, hwidth⟩ := Prod.mk.inj hplace
  exact ⟨f, hf, hname.symm, hwidth.symm⟩

/-- **Widths of value sets.** The path of a name leads to exactly one field of the tuple of value
sets, which is as wide as the values of the first value set of that name. The type of the name is
that of its last declaration. So the field is as wide as the name says exactly when these two
declarations have one width, and always when the name is declared once. -/
theorem lower_valueSet_width {u : ParserUnit} {p : Program} (h : u.lower.result = .ok p)
    {name path : String} (he : (name, path) ∈ p.storage.entries) :
    ∃ (fields : List BitField) (f : BitField) (first last : LocalDecl),
      p.tupleDefs.getLast? = some ⟨localType, "", .fields fields⟩ ∧
      path = localName ++ "." ++ f.name ∧
      fields.filter (fun g => g.name == f.name) = [f] ∧
      u.firstSet? name = some first ∧ first.controlName = some f.name ∧
      (u.types.resolve first.type).width = some f.bits ∧
      u.visible? name = some last ∧
      (∀ span, u.typeOf (.path name span) = u.types.resolve last.type) ∧
      ((∀ span, (u.typeOf (.path name span)).width = some f.bits) ↔
        (u.types.resolve last.type).width = (u.types.resolve first.type).width) ∧
      ((u.locals.map LocalDecl.name).count name = 1 →
        ∀ span, (u.typeOf (.path name span)).width = some f.bits) := by
  obtain ⟨sets, hkeeps, hstorage, hdefs, -⟩ := lower_tuples h
  rw [hstorage] at he
  obtain ⟨first, hfirst, hpath⟩ := storage_entry he
  have hset : first ∈ u.valueSets := (ParserUnit.firstSet?_spec hfirst).1
  obtain ⟨f, hf, hcontrol, hwidth⟩ := hkeeps.field hset
  obtain ⟨last, hlast⟩ := ParserUnit.exists_visible? hfirst
  have htype := ParserUnit.typeOf_visible hlast
  have hnonempty : u.valueSets.isEmpty = false :=
    List.isEmpty_eq_false_iff.mpr (List.ne_nil_of_mem hset)
  refine ⟨sets.fields, f, first, last, ?_, ?_, filter_name_eq hkeeps.nodup hf, hfirst, hcontrol,
    hwidth, hlast, htype, ?_, fun hone span => ?_⟩
  · rw [hdefs, hnonempty]
    simp
  · rw [LocalDecl.path?, hcontrol] at hpath
    exact (Option.some.inj hpath).symm
  · have hwidth' : (u.types.resolve first.type).width = some f.bits := hwidth
    rw [hwidth']
    exact ⟨fun hall => htype none ▸ hall none, fun heq span => htype span ▸ heq⟩
  · rw [htype, ← ParserUnit.visible?_of_count hfirst hlast hone]
    exact hwidth

/-- The value set that is declared once has a field as wide as the header its name stands for. -/
theorem lower_valueSet_width_more :
    ∃ (p : Program) (f : BitField), doubledParser.lower.result = .ok p ∧
      ("more", localName ++ "." ++ f.name) ∈ p.storage.entries ∧
      (doubledParser.typeOf (.path "more" none)).width = some f.bits := by
  obtain ⟨p, hp, hmem⟩ : ∃ p, doubledParser.lower.result = .ok p ∧
      ("more", "local.more") ∈ p.storage.entries := ⟨_, rfl, by decide⟩
  obtain ⟨fields, f, first, last, -, hpath, -, -, -, -, -, -, -, hone⟩ :=
    lower_valueSet_width hp hmem
  exact ⟨p, f, hp, hpath ▸ hmem, hone (by decide) none⟩

/-- The other name has a field of eight bits and stands for one bit. -/
theorem lower_valueSet_width_hidden :
    ∃ (p : Program) (fields : List BitField), doubledParser.lower.result = .ok p ∧
      ("known", "local.known_kinds") ∈ p.storage.entries ∧
      p.tupleDefs.getLast? = some ⟨localType, "", .fields fields⟩ ∧
      fields.filter (fun g => g.name == "known_kinds") = [⟨"known_kinds", 8⟩] ∧
      (doubledParser.typeOf (.path "known" none)).width = some 1 := by
  refine ⟨_, _, rfl, ?_, rfl, ?_, ?_⟩
  · decide
  · decide
  · decide

end PacketSections
