import Mathlib
import PacketSections.Proofs.SectionBody
import PacketSections.Proofs.TupleNames

/-!
Where an extracted header is kept.

A header that is reached from a parameter by a chain of members has its own run of fields in the
tuple of the parameter: a validity bit and its fields, named by the chain. Types of expressions and
flat fields are found in two different ways, from the declared names and from the whole type, and
both go through the same fields.
-/

namespace PacketSections

open Lowering

variable {u : ParserUnit}

/-! ### Chains of members -/

namespace Expr

/-- The name at the root of a chain of members, and the members. -/
def chain? : Expr → Option (String × List String)
  | path name _ => some (name, [])
  | member base name _ => base.chain?.map fun c => (c.1, c.2 ++ [name])
  | _ => none

/-- What an expression is a member of, directly or not. -/
def bases : Expr → List Expr
  | member base _ _ => base :: base.bases
  | _ => []

/-- The root of a chain is the last of the bases, unless the chain is its root. -/
lemma root_mem_bases {a : Expr} {root : String} {names : List String}
    (h : a.chain? = some (root, names)) : ∃ span, path root span ∈ a :: a.bases := by
  induction a generalizing names with
  | path name span =>
    obtain ⟨rfl, -⟩ := Prod.mk.inj (Option.some.inj h)
    exact ⟨span, List.mem_cons_self ..⟩
  | member base name span ih =>
    obtain ⟨⟨root', before⟩, hbase, heq⟩ := Option.map_eq_some_iff.mp h
    obtain ⟨rfl, rfl⟩ := Prod.mk.inj heq
    obtain ⟨place, hmem⟩ := ih hbase
    exact ⟨place, List.mem_cons_of_mem _ hmem⟩
  | _ => cases h

end Expr

namespace ResolvedType

/-- The leaves of a field stand together among those of all fields. -/
lemma leavesAt_infix_fieldLeaves (path : List String) {fields : List (String × ResolvedType)}
    {name : String} {t : ResolvedType} (h : field? fields name = some t) :
    leavesAt (path ++ [name]) t <:+: fieldLeaves path fields := by
  induction fields with
  | nil => cases h
  | cons f fields ih =>
    obtain ⟨other, t'⟩ := f
    unfold field? at h ih
    rw [List.lookup_cons] at h
    rw [fieldLeaves]
    split at h
    · next heq =>
      have hname : name = other := by simpa using heq
      obtain rfl := Option.some.inj h
      rw [hname]
      exact (List.prefix_append _ _).isInfix
    · exact (ih h).trans (List.suffix_append _ _).isInfix

lemma fieldLeaves_infix_leavesAt (path : List String) (kind : AggregateKind) (owner : String)
    (fields : List (String × ResolvedType)) :
    fieldLeaves path fields <:+: leavesAt path (aggregate kind owner fields) := by
  cases kind with
  | header =>
    rw [leavesAt]
    exact (List.suffix_cons _ _).isInfix
  | struct => simp [leavesAt]
  | headerUnion => simp [leavesAt]

/-- So a member of an aggregate has its leaves among those of the aggregate. -/
lemma leavesAt_memberType (path : List String) {t : ResolvedType} {name : String}
    (ht : t.asAggregate.isSome = true) (hm : (t.memberType name).asAggregate.isSome = true) :
    leavesAt (path ++ [name]) (t.memberType name) <:+: leavesAt path t := by
  cases t with
  | aggregate kind owner fields =>
    cases hf : field? fields name with
    | none => simp [memberType, hf, asAggregate] at hm
    | some t' =>
      have hmember : (aggregate kind owner fields).memberType name = t' := by
        simp [memberType, hf]
      rw [hmember]
      exact (leavesAt_infix_fieldLeaves path hf).trans
        (fieldLeaves_infix_leavesAt path kind owner fields)
  | _ => cases ht

end ResolvedType

open ResolvedType in
/-- The leaves at the end of a chain are among those at its root. -/
lemma leavesAt_chain {a : Expr} {root : String} {names : List String}
    (hc : a.chain? = some (root, names))
    (hb : ∀ b ∈ a.bases, (u.typeOf b).asAggregate.isSome = true)
    (ha : (u.typeOf a).asAggregate.isSome = true) :
    leavesAt names (u.typeOf a) <:+: leavesAt [] (u.typeOf (.path root none)) := by
  induction a generalizing names with
  | path name span =>
    obtain ⟨rfl, rfl⟩ := Prod.mk.inj (Option.some.inj hc)
    exact List.infix_rfl
  | member base name span ih =>
    obtain ⟨⟨root', before⟩, hbase, heq⟩ := Option.map_eq_some_iff.mp hc
    obtain ⟨rfl, rfl⟩ := Prod.mk.inj heq
    have hbase' : (u.typeOf base).asAggregate.isSome = true := hb base (List.mem_cons_self ..)
    have hinfix := ih hbase (fun b hb' => hb b (List.mem_cons_of_mem _ hb')) hbase'
    exact (leavesAt_memberType before hbase' ha).trans hinfix
  | _ => cases hc

/-! ### Parameters -/

lemma typeOf_param (hnames : (u.params.map Param.name ++ u.locals.map LocalDecl.name).Nodup)
    {q : Param} (hq : q ∈ u.params) :
    u.typeOf (.path q.name none) = u.types.resolve q.type := by
  have hkeys : u.scope.map Prod.fst = u.params.map Param.name ++ u.locals.map LocalDecl.name := by
    simp [ParserUnit.scope, Function.comp_def]
  have hmem : (q.name, q.type) ∈ u.scope.reverse := by
    rw [List.mem_reverse]
    exact List.mem_append_left _ (List.mem_map_of_mem (f := fun q => (q.name, q.type)) hq)
  have hnodup : (u.scope.reverse.map Prod.fst).Nodup := by
    rw [List.map_reverse, List.nodup_reverse, hkeys]
    exact hnames
  have hfound : u.scope.reverse.lookup q.name = some q.type := lookup_of_mem hnodup hmem
  unfold ParserUnit.typeOf Expr.typeIn ParserUnit.nameType?
  rw [hfound]
  rfl

/-- The tuple of a parameter is the first of its name. -/
lemma lower_tupleDef? {facts : Facts} {p : Program} (h : (lower facts u).result = .ok p)
    (hnames : (u.params.map Param.name).Nodup) {q : Param} (hq : q ∈ u.params)
    (ht : q.isTupled facts = true) : p.tupleDef? (q.name ++ "_t") = some (q.tuple facts) := by
  obtain ⟨sets, -, -, hdefs, -⟩ := lower_tuples h
  have hmem : q ∈ u.tupled facts := List.mem_filter.mpr ⟨hq, ht⟩
  have hnodup : ((u.tupled facts).map Param.name).Nodup :=
    hnames.sublist (List.filter_sublist.map _)
  obtain ⟨before, after, hsplit⟩ := List.append_of_mem hmem
  rw [hsplit, List.map_append, List.nodup_append] at hnodup
  unfold Program.tupleDef?
  rw [hdefs, hsplit, List.map_append, List.map_cons, List.append_assoc, List.cons_append]
  refine List.find?_eq_some_iff_append.mpr ⟨by simp [Param.tuple], _, _, rfl, fun d hd => ?_⟩
  -- another parameter has another name
  obtain ⟨r, hr, rfl⟩ := List.mem_map.mp hd
  have hne : r.name ≠ q.name :=
    hnodup.2.2 r.name (List.mem_map_of_mem hr) q.name (by simp)
  simpa [Param.tuple, String.append_left_inj] using hne

/-! ### Headers -/

namespace BitField

/-- The flat fields of a header at a path: its validity bit and its own fields. -/
def storedAt (path : List String) (fs : List BitField) : List BitField :=
  ⟨String.intercalate "_" (path ++ ["isValid"]), 1⟩ ::
    fs.map fun f => ⟨String.intercalate "_" (path ++ [f.name]), f.bits⟩

lemma total_storedAt (path : List String) (fs : List BitField) :
    total (storedAt path fs) = total fs + 1 := by
  have hone : (1 : UInt32).toNat = 1 := rfl
  unfold total storedAt
  rw [List.map_cons, List.sum_cons, List.map_map, hone, Nat.add_comm]
  rfl

end BitField

open ResolvedType in
lemma field?_leavesAt_header (path : List String) (owner : String) (fs : List BitField) :
    (leavesAt path (aggregate .header owner (ofBits fs))).filterMap Leaf.field? =
      BitField.storedAt path fs := by
  rw [leavesAt, fieldLeaves_ofBits, List.filterMap_cons, List.filterMap_map]
  have hfields : (Leaf.field? ∘ fun f : BitField =>
      .field ⟨joinPath (path ++ [f.name]), f.bits⟩) =
      some ∘ fun f => ⟨joinPath (path ++ [f.name]), f.bits⟩ := rfl
  rw [hfields, ← List.filterMap_map, List.filterMap_some]
  rfl

/-- A header at the end of a chain from a parameter is stored with the parameter. -/
lemma storedAt_infix {a : Expr} {owner : String} {fs : List BitField} {q : Param}
    {names : List String}
    (hnames : (u.params.map Param.name ++ u.locals.map LocalDecl.name).Nodup) (hq : q ∈ u.params)
    (ht : u.typeOf a = .aggregate .header owner (ResolvedType.ofBits fs))
    (hc : a.chain? = some (q.name, names))
    (hb : ∀ b ∈ a.bases, (u.typeOf b).asAggregate.isSome = true) :
    BitField.storedAt names fs <:+: q.flatFields u.types := by
  have hleaves := leavesAt_chain hc hb (by rw [ht]; rfl)
  rw [typeOf_param hnames hq, ht] at hleaves
  have hfields := hleaves.filterMap Leaf.field?
  rwa [field?_leavesAt_header] at hfields

/-- A parameter from which a chain of members starts has fields. -/
lemma isTupled_of_chain {a : Expr} {q : Param} {names : List String}
    (hnames : (u.params.map Param.name ++ u.locals.map LocalDecl.name).Nodup) (hq : q ∈ u.params)
    (hm : a.asMember.isSome = true) (hc : a.chain? = some (q.name, names))
    (hb : ∀ b ∈ a.bases, (u.typeOf b).asAggregate.isSome = true) :
    q.isTupled u.facts = true := by
  obtain ⟨span, hmem⟩ := Expr.root_mem_bases hc
  have hroot : (u.typeOf (.path q.name none)).asAggregate.isSome = true := by
    rcases List.mem_cons.mp hmem with heq | hmem
    · rw [← heq] at hm
      cases hm
    · exact hb (.path q.name span) hmem
  rw [typeOf_param hnames hq] at hroot
  exact hroot

/-- The increment of a header stands behind those of the headers that are extracted before it. -/
lemma increment_at {storage : Storage} {before after : List Statement} {stmt : Statement}
    {headers : List (Expr × List BitField)} {body : Body} {a : Expr}
    {fields : List (String × ResolvedType)}
    (h : body.Accounts u storage (before ++ stmt :: after) headers)
    (ha : stmt.target? u = some (a, fields)) :
    ∃ fs w, fields = ResolvedType.ofBits fs ∧
      body.increments[(before.filterMap (Statement.target? u)).length]? = some w ∧
      w.toNat = BitField.total fs := by
  have htargets := h.targets
  rw [List.filterMap_append, List.filterMap_cons, ha] at htargets
  have hget := congrArg (·[(before.filterMap (Statement.target? u)).length]?) htargets
  simp only [List.getElem?_append_right, Nat.le_refl, Nat.sub_self, List.getElem?_cons_zero,
    List.getElem?_map] at hget
  obtain ⟨header, hheader, heq⟩ := Option.map_eq_some_iff.mp hget.symm
  have hinc := congrArg (·[(before.filterMap (Statement.target? u)).length]?) h.increments
  simp only [List.getElem?_map, hheader, Option.map_some] at hinc
  obtain ⟨w, hw, hsum⟩ := Option.map_eq_some_iff.mp hinc
  obtain ⟨-, rfl⟩ := Prod.mk.inj heq
  exact ⟨header.2, w, rfl, hw, hsum⟩

/-- **Extracted headers have their place.** When a header that is extracted is reached from a
parameter by members of things with fields, the tuple of the parameter has its validity bit and its
fields in one run, named by the way to it. The increment is the width of this run without the
validity bit. -/
theorem lower_header_storage {u : ParserUnit} {p : Program} (h : u.lower.result = .ok p)
    (hnames : (u.params.map Param.name ++ u.locals.map LocalDecl.name).Nodup) {i : ℕ} {s : State}
    (hs : u.states[i]? = some s) (hgoes : s.isTerminal = false)
    {before after : List Statement} {stmt : Statement}
    (hsplit : s.statements = before ++ stmt :: after) {a : Expr}
    {fields : List (String × ResolvedType)} (ha : stmt.target? u = some (a, fields)) {q : Param}
    (hq : q ∈ u.params) {names : List String} (hchain : a.chain? = some (q.name, names))
    (hbases : ∀ b ∈ a.bases, (u.typeOf b).asAggregate.isSome = true) :
    ∃ (sec : Section) (d : TupleDef) (fs : List BitField) (w : UInt32),
      p.sections[i]? = some sec ∧ p.tupleDef? (q.name ++ "_t") = some d ∧
      d.body.text = BitField.block (q.flatFields u.types) ∧
      fields = ResolvedType.ofBits fs ∧
      BitField.storedAt names fs <:+: q.flatFields u.types ∧
      sec.increments[(before.filterMap (Statement.target? u)).length]? = some w ∧
      w.toNat = BitField.total (BitField.storedAt names fs) - 1 := by
  obtain ⟨sec, headers, hsec, hacc⟩ := lower_accounts h hs hgoes
  rw [hsplit] at hacc
  obtain ⟨fs, w, rfl, hw, hsum⟩ := increment_at hacc ha
  obtain ⟨hm, owner, ht⟩ := Statement.target?_eq_some ha
  have htupled : q.isTupled u.facts = true := isTupled_of_chain hnames hq hm hchain hbases
  have hparams : (u.params.map Param.name).Nodup := (List.nodup_append.mp hnames).1
  refine ⟨sec, q.tuple u.facts, fs, w, hsec, lower_tupleDef? h hparams hq htupled, rfl, rfl,
    storedAt_infix hnames hq ht hchain hbases, hw, ?_⟩
  rw [BitField.total_storedAt, hsum]
  rfl

/-- The headers are in a structure of a structure. -/
def nestedHeader (name : String) : Expr :=
  .member (.member (.path "hdr" none) "link" none) name none

def nestedExtract (name : String) : Statement :=
  .call (.member (.path "packet" none) "extract" none) [nestedHeader name] none

def nestedState : State :=
  ⟨"start", [nestedExtract "first", nestedExtract "second"], some (.direct "accept"), none⟩

def nestedParser : ParserUnit :=
  { sampleParser with
    types := .ofList
      [("packet_in", .external),
       ("tag_t", .header [⟨"kind", .bits 8⟩, ⟨"more", .bits 4⟩]),
       ("link_t", .struct [⟨"first", .named "tag_t"⟩, ⟨"count", .bits 3⟩,
         ⟨"second", .named "tag_t"⟩]),
       ("headers_t", .struct [⟨"pad", .bool⟩, ⟨"link", .named "link_t"⟩])]
    states := [nestedState, .bare "accept", .bare "reject"] }

theorem lower_header_storage_nested :
    ∃ (p : Program) (sec : Section) (d : TupleDef) (fs : List BitField) (w : UInt32),
      nestedParser.lower.result = .ok p ∧ p.sections[0]? = some sec ∧
      p.tupleDef? "hdr_t" = some d ∧
      d.body.text = BitField.block
        [⟨"pad", 1⟩, ⟨"link_first_isValid", 1⟩, ⟨"link_first_kind", 8⟩, ⟨"link_first_more", 4⟩,
         ⟨"link_count", 3⟩, ⟨"link_second_isValid", 1⟩, ⟨"link_second_kind", 8⟩,
         ⟨"link_second_more", 4⟩] ∧
      [("kind", .bits 8), ("more", .bits 4)] = ResolvedType.ofBits fs ∧
      sec.increments[1]? = some w ∧
      w.toNat = BitField.total (BitField.storedAt ["link", "second"] fs) - 1 := by
  obtain ⟨p, hp⟩ : ∃ p, nestedParser.lower.result = .ok p := ⟨_, rfl⟩
  have hsplit : nestedState.statements = [nestedExtract "first"] ++ nestedExtract "second" :: [] :=
    rfl
  have htarget : (nestedExtract "second").target? nestedParser =
      some (nestedHeader "second", [("kind", .bits 8), ("more", .bits 4)]) := rfl
  have hparam : ⟨"hdr", .write, .named "headers_t", none⟩ ∈ nestedParser.params := by decide
  have hchain : (nestedHeader "second").chain? = some ("hdr", ["link", "second"]) := rfl
  obtain ⟨sec, d, fs, w, hsec, hd, hbody, hfs, -, hw, hsum⟩ :=
    lower_header_storage hp (by decide) (i := 0) rfl (by decide) hsplit htarget hparam hchain
      (by decide)
  exact ⟨p, sec, d, fs, w, hp, hsec, hd, hbody, hfs, hw, hsum⟩

end PacketSections
