import Mathlib
import PacketSections.Proofs.Extraction

/-!
What a section holds.

The layouts, the updates and the increments of a section grow together as the statements of its
state are lowered. An assignment is one update, and a header that is extracted is a layout, an
increment and a run of updates, all by the same fields; other statements add nothing.
-/

namespace PacketSections

open Lowering

variable {u : ParserUnit} {storage : Storage}

/-! ### Statements -/

namespace Statement

/-- The member into which a statement extracts, and the fields of the header that it is. -/
def target? (u : ParserUnit) (s : Statement) : Option (Expr × List (String × ResolvedType)) :=
  match s.extract? u.facts with
  | some ([a], _) =>
    match a.asMember, u.typeOf a with
    | some _, .aggregate .header _ fields => some (a, fields)
    | _, _ => none
  | _ => none

lemma target?_eq_some {u : ParserUnit} {s : Statement} {a : Expr}
    {fields : List (String × ResolvedType)} (h : s.target? u = some (a, fields)) :
    a.asMember.isSome = true ∧ ∃ owner, u.typeOf a = .aggregate .header owner fields := by
  unfold target? at h
  split at h
  · split at h
    · next hm ht =>
      obtain ⟨rfl, rfl⟩ := Prod.mk.inj (Option.some.inj h)
      exact ⟨by simp [hm], _, ht⟩
    · cases h
  · cases h

/-- The updates of a statement: an assignment, or what follows from extracting a header. -/
def updates (u : ParserUnit) (storage : Storage) (s : Statement) : List Update :=
  match s with
  | assign left right _ => [⟨convert u.facts storage left, convert u.facts storage right⟩]
  | call _ _ _ =>
    match s.target? u with
    | some (a, fields) =>
      ⟨a.text ++ ".isValid", "1"⟩ :: fields.map (fun f => ⟨a.text ++ "." ++ f.1, f.1⟩) ++
        [⟨"TopParser_extracts.size",
          "TopParser_extracts.size + " ++ toString (ResolvedType.headerBits fields)⟩]
    | none => []
  | empty => []
  | other _ _ => []

end Statement

/-- The lists of a body are those of the headers that statements extract, and their updates are
those of the statements. -/
structure Body.Accounts (u : ParserUnit) (storage : Storage) (ss : List Statement)
    (headers : List (Expr × List BitField)) (body : Body) : Prop where
  targets : ss.filterMap (Statement.target? u) =
    headers.map fun h => (h.1, ResolvedType.ofBits h.2)
  layouts : body.layouts = headers.map fun h => BitField.block h.2
  increments : body.increments.map UInt32.toNat = headers.map fun h => BitField.total h.2
  updates : body.updates = ss.flatMap (Statement.updates u storage)

namespace Body.Accounts

lemma nil : Body.Accounts u storage [] [] .empty := ⟨rfl, rfl, rfl, rfl⟩

lemma append {ss ss' : List Statement} {headers headers' : List (Expr × List BitField)}
    {a b : Body} (ha : a.Accounts u storage ss headers) (hb : b.Accounts u storage ss' headers') :
    (a.append b).Accounts u storage (ss ++ ss') (headers ++ headers') where
  targets := by rw [List.filterMap_append, ha.targets, hb.targets, List.map_append]
  layouts := by rw [List.map_append, ← ha.layouts, ← hb.layouts]; rfl
  increments := by rw [List.map_append, ← ha.increments, ← hb.increments, ← List.map_append]; rfl
  updates := by rw [List.flatMap_append, ← ha.updates, ← hb.updates]; rfl

end Body.Accounts

/-- A statement that extracts nothing adds its own update, if it is an assignment. -/
lemma accounts_of_extract?_none {s : Statement} {body : Body} (hx : s.extract? u.facts = none)
    (h : (lowerStatement u.facts storage s).result = .ok body) :
    body.Accounts u storage [s] [] := by
  have htarget : s.target? u = none := by
    rw [Statement.target?, hx]
  have hbody : body = ⟨[], s.updates u storage, []⟩ := by
    cases s with
    | call method args span =>
      have hcall : (lowerCall u.facts method args span).result = .ok .empty := by
        simp only [Statement.extract?] at hx
        unfold lowerCall
        cases hc : u.facts.call method args with
        | other => rfl
        | method owner name passed =>
          simp only [hc] at hx
          split at hx
          · cases hx
          · next hno =>
            simp only [if_neg hno]
            rfl
      obtain rfl := Except.ok.inj (hcall.symm.trans h)
      simp only [Statement.updates, htarget]
      rfl
    | _ =>
      obtain rfl := Except.ok.inj h
      rfl
  subst hbody
  exact ⟨by simp [htarget], rfl, rfl, by simp⟩

/-- A header that is extracted adds all that follows from it. -/
lemma accounts_ofHeader {s : Statement} {a base : Expr} {name owner : String} {fs : List BitField}
    {span : Option Span} (hx : s.extract? u.facts = some ([a], span))
    (ht : u.typeOf a = .aggregate .header owner (ResolvedType.ofBits fs))
    (hm : a.asMember = some (base, name)) (hw : BitField.total fs < 2 ^ 32) :
    (Body.ofHeader a.text fs).Accounts u storage [s] [(a, fs)] := by
  have htarget : s.target? u = some (a, ResolvedType.ofBits fs) := by
    rw [Statement.target?, hx]
    simp only [hm, ht]
  have hupdates : s.updates u storage = (Body.ofHeader a.text fs).updates := by
    cases s with
    | call method args place =>
      simp only [Statement.updates, htarget, ResolvedType.headerBits_ofBits]
      rw [ResolvedType.ofBits, List.map_map]
      rfl
    | _ => cases hx
  refine ⟨by simp [htarget], rfl, ?_, by simp [hupdates]⟩
  have hwidth : (UInt32.ofNat (BitField.total fs)).toNat = BitField.total fs :=
    UInt32.toNat_ofNat_of_lt hw
  simpa [Body.ofHeader] using hwidth

lemma accounts_statement {s : Statement} {body : Body}
    (h : (lowerStatement u.facts storage s).result = .ok body) :
    ∃ headers, body.Accounts u storage [s] headers := by
  cases hx : s.extract? u.facts with
  | none => exact ⟨[], accounts_of_extract?_none hx h⟩
  | some x =>
    obtain ⟨args, span⟩ := x
    rw [lowerStatement_of_extract? hx] at h
    have hcases := u.extracts_lowerExtract args span
    generalize lowerExtract u.facts args span = p at h hcases
    cases hcases with
    | @ignored a _ _ _ _ hm =>
      -- the target is no member, and the statement is passed over
      obtain rfl := Except.ok.inj h
      have htarget : s.target? u = none := by
        rw [Statement.target?, hx]
        simp only [hm]
      have hupdates : s.updates u storage = [] := by
        cases s with
        | assign => cases hx
        | _ => simp only [Statement.updates, htarget]
      exact ⟨[], by simp [htarget], rfl, rfl, by simp [hupdates, Body.empty]⟩
    | header ht hm _ hw =>
      obtain rfl := Except.ok.inj h
      exact ⟨[_], accounts_ofHeader hx ht hm hw⟩
    | _ => cases h

/-- All statements of a state. -/
lemma accounts_statements {ss : List Statement} {body : Body}
    (h : (lowerStatements u.facts storage ss).result = .ok body) :
    ∃ headers, body.Accounts u storage ss headers := by
  induction ss generalizing body with
  | nil =>
    obtain rfl := Except.ok.inj h
    exact ⟨[], .nil⟩
  | cons s ss ih =>
    simp only [lowerStatements, Pass.bind_ok_iff, Pass.pure_result, Except.ok.injEq] at h
    obtain ⟨head, hs, rest, hss, rfl⟩ := h
    obtain ⟨headers, hhead⟩ := accounts_statement hs
    obtain ⟨headers', hrest⟩ := ih hss
    exact ⟨headers ++ headers', hhead.append hrest⟩

/-! ### Sections -/

variable {facts : Facts}

/-- The section holds what the statements of the state amount to. -/
def State.Fills (facts : Facts) (storage : Storage) (s : State) (sec : Section) : Prop :=
  ∃ body : Body, (lowerStatements facts storage s.statements).result = .ok body ∧
    sec.layouts = body.layouts ∧ sec.updates = body.updates ∧ sec.increments = body.increments

lemma lowerStates_fills {count ordinal : ℕ} {ss : List State} {secs : List Section}
    (h : (lowerStates facts storage count ordinal ss).result = .ok secs) :
    List.Forall₂ (fun s sec => s.isTerminal = false → s.Fills facts storage sec) ss secs := by
  induction ss generalizing ordinal secs with
  | nil =>
    obtain rfl := Except.ok.inj h
    exact .nil
  | cons s ss ih =>
    simp only [lowerStates, Pass.bind_ok_iff, Pass.note_result, Pass.pure_result, Except.ok.injEq,
      exists_const, true_and] at h
    obtain ⟨sec, hsec, rest, hrest, rfl⟩ := h
    refine .cons (fun ht => ?_) (ih hrest)
    have hends : s.isReject = false ∧ s.isAccept = false := by
      simpa [State.isTerminal, and_comm] using ht
    simp only [hends, Bool.false_eq_true, if_false, lowerState, Pass.bind_ok_iff, Pass.pure_result,
      Except.ok.injEq] at hsec
    obtain ⟨body, hbody, rfl⟩ := hsec
    exact ⟨body, hbody, rfl, rfl, rfl⟩

lemma lower_fills {p : Program} (h : (lower facts u).result = .ok p) {i : ℕ} {s : State}
    (hs : u.states[i]? = some s) (ht : s.isTerminal = false) :
    ∃ sec, p.sections[i]? = some sec ∧ s.Fills facts u.storage sec := by
  obtain ⟨t, -, hstates, -⟩ := lower_parts h
  have hfills := lowerStates_fills hstates
  obtain ⟨hi, rfl⟩ := List.getElem?_eq_some_iff.mp hs
  have hi' : i < p.sections.length := by
    rw [← hfills.length_eq]
    exact hi
  exact ⟨_, List.getElem?_eq_getElem hi', hfills.get hi hi' ht⟩

/-- The section of a state in which the parser goes on holds what its statements extract and
assign. -/
lemma lower_accounts {p : Program} (h : u.lower.result = .ok p) {i : ℕ} {s : State}
    (hs : u.states[i]? = some s) (ht : s.isTerminal = false) :
    ∃ sec headers, p.sections[i]? = some sec ∧
      Body.Accounts u p.storage s.statements headers
        ⟨sec.layouts, sec.updates, sec.increments⟩ := by
  obtain ⟨t, -, -, -, -, hstorage⟩ := lower_parts h
  obtain ⟨sec, hsec, body, hbody, hlayouts, hupdates, hincrements⟩ := lower_fills h hs ht
  obtain ⟨headers, hacc⟩ := accounts_statements hbody
  refine ⟨sec, headers, hsec, ?_⟩
  rw [hlayouts, hupdates, hincrements, hstorage]
  exact hacc

/-- The updates of a statement stand together in the section. -/
lemma lower_updates_infix {p : Program} (h : u.lower.result = .ok p) {i : ℕ} {s : State}
    (hs : u.states[i]? = some s) (ht : s.isTerminal = false) {stmt : Statement}
    (hstmt : stmt ∈ s.statements) :
    ∃ sec, p.sections[i]? = some sec ∧ stmt.updates u p.storage <:+: sec.updates := by
  obtain ⟨sec, headers, hsec, hacc⟩ := lower_accounts h hs ht
  have hupdates : sec.updates = s.statements.flatMap (Statement.updates u p.storage) := hacc.updates
  obtain ⟨before, after, hsplit⟩ := List.append_of_mem hstmt
  refine ⟨sec, hsec, before.flatMap (Statement.updates u p.storage),
    after.flatMap (Statement.updates u p.storage), ?_⟩
  rw [hupdates, hsplit, List.flatMap_append, List.flatMap_cons, List.append_assoc]

/-- **What a section holds.** The headers that a state extracts have bit fields. There is one layout
and one increment for each, in order: the layout is that of the fields, and the increment is the
exact sum of their widths. The updates are those of the statements, one after the other. -/
theorem lower_section_body {u : ParserUnit} {p : Program} (h : u.lower.result = .ok p) {i : ℕ}
    {s : State} (hs : u.states[i]? = some s) (ht : s.isTerminal = false) :
    ∃ (sec : Section) (headers : List (Expr × List BitField)), p.sections[i]? = some sec ∧
      s.statements.filterMap (Statement.target? u) =
        headers.map (fun h => (h.1, ResolvedType.ofBits h.2)) ∧
      sec.layouts.length = (s.statements.filterMap (Statement.target? u)).length ∧
      sec.increments.length = (s.statements.filterMap (Statement.target? u)).length ∧
      sec.layouts = headers.map (fun h => BitField.block h.2) ∧
      sec.increments.map UInt32.toNat = headers.map (fun h => BitField.total h.2) ∧
      (∀ h ∈ headers, BitField.total h.2 < 2 ^ 32) ∧
      sec.updates = s.statements.flatMap (Statement.updates u p.storage) := by
  obtain ⟨sec, headers, hsec, hacc⟩ := lower_accounts h hs ht
  have hlen : (s.statements.filterMap (Statement.target? u)).length = headers.length := by
    rw [hacc.targets, List.length_map]
  have hlayouts : sec.layouts = headers.map fun h => BitField.block h.2 := hacc.layouts
  have hincrements : sec.increments.map UInt32.toNat = headers.map fun h => BitField.total h.2 :=
    hacc.increments
  refine ⟨sec, headers, hsec, hacc.targets, ?_, ?_, hlayouts, hincrements, ?_, hacc.updates⟩
  · rw [hlen, hlayouts, List.length_map]
  · have hcount := congrArg List.length hincrements
    rw [List.length_map, List.length_map] at hcount
    rw [hlen, hcount]
  · intro header hheader
    have hmem : BitField.total header.2 ∈ sec.increments.map UInt32.toNat := by
      rw [hincrements]
      exact List.mem_map_of_mem hheader
    obtain ⟨w, -, hw⟩ := List.mem_map.mp hmem
    rw [← hw]
    exact w.toNat_lt

/-- A state with an assignment, two headers, and an extraction that is passed over. -/
def mixedParser : ParserUnit :=
  let hdr (name : String) : Expr := .member (.path "hdr" none) name none
  let extract (target : Expr) : Statement :=
    .call (.member (.path "packet" none) "extract" none) [target] none
  { sampleParser with
    params := sampleParser.params ++ [⟨"tag", .write, .named "tag_t", none⟩]
    states :=
      [⟨"start",
        [extract (hdr "inner"), .assign (.path "known" none) (.constant 3 none none) none,
         extract (.path "tag" none), .other "verify" none, extract (hdr "outer")],
        some (.direct "accept"), none⟩,
       .bare "accept", .bare "reject"] }

theorem lower_section_body_mixed :
    ∃ (p : Program) (sec : Section), mixedParser.lower.result = .ok p ∧
      p.sections[0]? = some sec ∧ sec.layouts.length = 2 ∧ sec.increments.length = 2 ∧
      sec.updates.map Update.text =
        ["hdr.inner.isValid = 1", "hdr.inner.kind = kind", "hdr.inner.more = more",
         "TopParser_extracts.size = TopParser_extracts.size + 12", "local.known_kinds = 3",
         "hdr.outer.isValid = 1", "hdr.outer.kind = kind", "hdr.outer.more = more",
         "TopParser_extracts.size = TopParser_extracts.size + 12"] := by
  obtain ⟨p, hp⟩ : ∃ p, mixedParser.lower.result = .ok p := ⟨_, rfl⟩
  obtain ⟨sec, headers, hsec, -, hlayouts, hincrements, -, -, -, hupdates⟩ :=
    lower_section_body hp (i := 0) rfl (by decide)
  have hstorage : p.storage = ⟨[("known", "local.known_kinds")]⟩ := by
    obtain rfl := Except.ok.inj hp
    decide
  refine ⟨p, sec, hp, hsec, hlayouts, hincrements, ?_⟩
  rw [hupdates, hstorage]
  decide

end PacketSections
