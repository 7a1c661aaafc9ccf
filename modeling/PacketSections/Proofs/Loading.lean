import Mathlib
import PacketSections.Command.Batch
import PacketSections.Proofs.DraftLikeness
import PacketSections.Proofs.TypeReach

/-!
Reading a parser from a text, and from the sorted document of the text.

The sorted document keeps the last of several members of one name. Where a record is read there is
no more than one, so a document is like its sorted form. The table of types is the one place where
names may be repeated: there the last declaration counts in any case, but the sorted form has the
types in another order, which lowering does not see.
-/

namespace PacketSections

open Json

namespace Json.Document

/-! ### Sorted documents -/

/-- The names are strictly increasing. -/
def Increasing {α : Type} (l : List (String × α)) : Prop := l.Pairwise fun a b => a.1 < b.1

section insert

variable {α : Type} {k : String} {v : α} {l : List (String × α)}

lemma mem_insertSorted {a : String × α} (h : a ∈ insertSorted k v l) : a = (k, v) ∨ a ∈ l := by
  induction l with
  | nil => simpa [insertSorted] using h
  | cons b l ih =>
    obtain ⟨k', v'⟩ := b
    rw [insertSorted] at h
    split_ifs at h
    · rcases List.mem_cons.mp h with h | h
      · exact .inl h
      · exact .inr (List.mem_cons_of_mem _ h)
    · rcases List.mem_cons.mp h with h | h
      · exact .inl h
      · exact .inr h
    · rcases List.mem_cons.mp h with h | h
      · exact .inr (h ▸ List.mem_cons_self)
      · rcases ih h with h | h
        · exact .inl h
        · exact .inr (List.mem_cons_of_mem _ h)

lemma increasing_insertSorted (h : Increasing l) : Increasing (insertSorted k v l) := by
  induction l with
  | nil => exact List.pairwise_singleton _ _
  | cons b l ih =>
    obtain ⟨k', v'⟩ := b
    obtain ⟨hb, hl⟩ := List.pairwise_cons.mp h
    rw [insertSorted]
    split_ifs with heq hlt
    · exact List.pairwise_cons.mpr ⟨heq ▸ hb, hl⟩
    · refine List.pairwise_cons.mpr ⟨fun a ha => ?_, h⟩
      rcases List.mem_cons.mp ha with rfl | ha
      · exact hlt
      · exact hlt.trans (hb a ha)
    · refine List.pairwise_cons.mpr ⟨fun a ha => ?_, ih hl⟩
      rcases mem_insertSorted ha with rfl | ha
      · exact lt_of_le_of_ne (not_lt.mp hlt) (Ne.symm heq)
      · exact hb a ha

/-- A name that comes before all others has no value. -/
lemma valuesOf_eq_nil (h : ∀ a ∈ l, k < a.1) : valuesOf k l = [] := by
  rw [valuesOf, List.map_eq_nil_iff, List.filter_eq_nil_iff]
  intro a ha
  simpa using (h a ha).ne'

/-- What is inserted takes the place of what was there. -/
lemma valuesOf_insertSorted_self (h : Increasing l) : valuesOf k (insertSorted k v l) = [v] := by
  induction l with
  | nil => simp [insertSorted, valuesOf]
  | cons b l ih =>
    obtain ⟨k', v'⟩ := b
    obtain ⟨hb, hl⟩ := List.pairwise_cons.mp h
    rw [insertSorted]
    split_ifs with heq hlt
    · rw [valuesOf_cons_self, valuesOf_eq_nil (heq ▸ hb)]
    · rw [valuesOf_cons_self, valuesOf_eq_nil]
      intro a ha
      rcases List.mem_cons.mp ha with rfl | ha
      · exact hlt
      · exact hlt.trans (hb a ha)
    · rw [valuesOf_cons, if_neg (Ne.symm heq), ih hl]

lemma valuesOf_insertSorted_of_ne {j : String} (hj : k ≠ j) :
    valuesOf j (insertSorted k v l) = valuesOf j l := by
  induction l with
  | nil => simp [insertSorted, valuesOf, hj]
  | cons b l ih =>
    obtain ⟨k', v'⟩ := b
    rw [insertSorted]
    split_ifs with heq hlt
    · rw [valuesOf_cons, valuesOf_cons, if_neg hj, if_neg (heq ▸ hj)]
    · rw [valuesOf_cons, if_neg hj]
    · rw [valuesOf_cons, valuesOf_cons, ih]

end insert

/-- Under each name there is the last of its values, sorted in its turn. -/
lemma valuesOf_sortedMembers (k : String) (ms : List (String × Document))
    {done : List (String × Document)} (hdone : Increasing done) :
    valuesOf k (sortedMembers ms done) =
      ((valuesOf k ms).getLast?.map fun d => [d.sorted]).getD (valuesOf k done) := by
  induction ms generalizing done with
  | nil => rfl
  | cons m ms ih =>
    obtain ⟨k', d⟩ := m
    rw [sortedMembers, ih (increasing_insertSorted hdone), valuesOf_cons]
    by_cases hk : k' = k
    · subst hk
      rw [if_pos rfl, valuesOf_insertSorted_self hdone, List.getLast?_cons]
      cases (valuesOf k' ms).getLast? <;> rfl
    · rw [if_neg hk, valuesOf_insertSorted_of_ne hk]

lemma sortedItems_eq_map (ds : List Document) : sortedItems ds = ds.map sorted := by
  induction ds with
  | nil => rfl
  | cons d ds ih => rw [sortedItems, ih, List.map_cons]

/-- Sorting leaves alone what has nothing to be sorted in it. -/
lemma sorted_of_rigid {f : Form} {d : Document} (h : Rigid f d) : d.sorted = d := by
  cases h <;> rfl

lemma eq_null_of_sorted {d : Document} (h : d.sorted = .null) : d = .null := by
  cases d with
  | null => rfl
  | _ => simp [sorted] at h

end Json.Document

/-! ### Likeness -/

/-- The draft of a document, and the sorted document. -/
def Sorts (room room' : ℕ) (_ : Form) (x y : Draft) : Prop :=
  ∃ d, x.Completes room d ∧ y = .ofDocument d.sorted ∧ d.sorted.Within room'

namespace Sorts

lemma items {i j : ℕ} {xs : List Draft} {ds : List Document}
    (h : List.Forall₂ (Draft.Completes i) xs ds) (hj : ∀ d ∈ ds.map Document.sorted, d.Within j) :
    List.Forall₂ (fun x y => ∀ f, Sorts i j f x y) xs
      (Draft.ofItems (Document.sortedItems ds)) := by
  rw [Document.sortedItems_eq_map, Draft.ofItems_eq_map]
  induction h with
  | nil => exact .nil
  | @cons x d _ _ hx _ ih =>
    rw [List.map_cons, List.forall_mem_cons] at hj
    exact .cons (fun _ => ⟨d, hx, rfl, hj.1⟩) (ih hj.2)

/-- The values of the sorted members under a name: the last of those that were there. -/
lemma values {i j : ℕ} {vs : List (String × Draft)} {ms : List (String × Document)}
    (h : Stand (Draft.Completes i) vs ms)
    (hj : ∀ m ∈ Document.sortedMembers ms [], m.2.Within j) (k : String) (f : Form) :
    Once (Sorts i j f) (valuesOf k vs)
      (valuesOf k ((Document.sortedMembers ms []).map fun m => (m.1, Draft.ofDocument m.2))) := by
  have hlast : valuesOf k (Document.sortedMembers ms []) = _ :=
    Document.valuesOf_sortedMembers k ms .nil
  have hvalues := forall₂_valuesOf h k
  rw [valuesOf_map]
  constructor
  · intro hnil
    rw [hnil, List.forall₂_nil_left_iff] at hvalues
    rw [hlast, hvalues]
    rfl
  · intro v hv
    rw [hv, List.forall₂_singleton_left_iff] at hvalues
    obtain ⟨d, hds, hd⟩ := hvalues
    rw [hds] at hlast
    have hmem : d.sorted ∈ valuesOf k (Document.sortedMembers ms []) := by simp [hlast]
    exact ⟨_, by rw [hlast]; rfl, d, hd, rfl, hj _ (mem_valuesOf.mp hmem)⟩

end Sorts

lemma likeness_sorts : Likeness Sorts where
  completes := by
    rintro room room' f x y _ ⟨d, -, rfl, hroom⟩ -
    exact ⟨d.sorted, Draft.completes_ofDocument hroom⟩
  rigid := by
    rintro room room' f x y _ ⟨d, hd, rfl, hroom⟩ he hrigid
    obtain rfl := hd.unique he
    have hy := Draft.completes_ofDocument hroom
    rwa [Document.sorted_of_rigid hrigid] at hy ⊢
  null := by
    rintro room room' f x ⟨d, hd, hnull, -⟩
    have hsorted : d.sorted = .null := by
      cases hs : d.sorted <;> simp [hs, Draft.ofDocument] at hnull ⊢
    obtain rfl := Document.eq_null_of_sorted hsorted
    exact Draft.completes_null_iff.mp hd
  list := by
    rintro i room' p after xs y ⟨d, hd, rfl, hroom⟩
    obtain ⟨_, ds, ⟨⟩, -, hds, rfl⟩ := Draft.completes_array_left.mp hd
    obtain ⟨j, rfl, hj⟩ := Document.within_array.mp hroom
    rw [Document.sortedItems_eq_map] at hj
    exact ⟨j, [], _, rfl, rfl, (Sorts.items hds hj).imp fun _ _ h => h _⟩
  items := by
    rintro i room' p after xs y ⟨d, hd, rfl, hroom⟩
    obtain ⟨_, ds, ⟨⟩, -, hds, rfl⟩ := Draft.completes_array_left.mp hd
    obtain ⟨j, rfl, hj⟩ := Document.within_array.mp hroom
    rw [Document.sortedItems_eq_map] at hj
    exact ⟨j, [], _, rfl, rfl, .of_forall₂ (Sorts.items hds hj) _⟩
  members := by
    rintro i room' p after xs vs y ⟨d, hd, rfl, hroom⟩ hvs
    obtain ⟨_, ws, ms, ⟨⟩, -, hws, hms, rfl⟩ := Draft.completes_object_left.mp hd
    obtain rfl := Record.keyed_injective (hvs.symm.trans hws)
    obtain ⟨j, rfl, hj⟩ := Document.within_object.mp hroom
    refine ⟨j, [], _, _, rfl, rfl, Draft.named_ofMembers _, fun f _ => Sorts.values hms hj f.1 f.2,
      fun _ w hw _ => ?_⟩
    obtain ⟨m, -, rfl⟩ := List.mem_map.mp hw
    exact Draft.skipFault_ofDocument m.2

/-! ### Type tables -/

namespace TypeTable

/-- The last declaration of a name counts. -/
lemma find?_ofList (es : List (String × TypeDecl)) (name : String) :
    (ofList es).find? name = (valuesOf name es).getLast? := by
  induction es using List.reverseRecOn with
  | nil => rfl
  | append_singleton es e ih =>
    rw [ofList, List.foldl_append, List.foldl_cons, List.foldl_nil, ← ofList, find?_insert, ih,
      valuesOf_append, valuesOf_cons, valuesOf_nil]
    by_cases hname : name = e.1
    · rw [if_pos hname, if_pos hname.symm, List.getLast?_concat]
    · rw [if_neg hname, if_neg (Ne.symm hname), List.append_nil]

/-- Both tables find the same declarations, though they may list them in another order. -/
def SameTypes (types types' : TypeTable) : Prop := ∀ name, types.find? name = types'.find? name

/-- The declaration of a name that counts is read from the sorted document too. -/
lemma sorted_last {i j : ℕ} {vs : List (String × Draft)} {ms : List (String × Document)}
    {es : List (String × TypeDecl)} (hms : Stand (Draft.Completes i) vs ms)
    (hread : List.Forall₂ (fun v e => v.1 = e.1 ∧ TypeDecl.ofDraft i v.2 = .ok e.2) vs es)
    (hj : ∀ m ∈ Document.sortedMembers ms [], m.2.Within j) (name : String) :
    valuesOf name (Document.sortedMembers ms []) = [] ∧ (valuesOf name es).getLast? = none ∨
      ∃ d decl, valuesOf name (Document.sortedMembers ms []) = [d] ∧
        (valuesOf name es).getLast? = some decl ∧
        TypeDecl.ofDraft j (.ofDocument d) = .ok decl := by
  have hlast : valuesOf name (Document.sortedMembers ms []) =
      ((valuesOf name ms).getLast?.map fun d => [d.sorted]).getD [] :=
    Document.valuesOf_sortedMembers name ms .nil
  -- each declaration stands for a document, by way of its draft
  have hdecls : List.Forall₂ (fun (m : String × Document) e => m.1 = e.1 ∧
      ∃ x : Draft, x.Completes i m.2 ∧ TypeDecl.ofDraft i x = .ok e.2) ms es := by
    clear hj hlast
    induction hms generalizing es with
    | nil => cases hread; exact .nil
    | @cons v m _ _ hvm _ ih =>
      obtain _ | ⟨hve, hread⟩ := hread
      exact .cons ⟨hvm.1.symm.trans hve.1, v.2, hvm.2, hve.2⟩ (ih hread)
  have hvalues : List.Forall₂ (fun d decl => ∃ x : Draft, x.Completes i d ∧
      TypeDecl.ofDraft i x = .ok decl) (valuesOf name ms) (valuesOf name es) :=
    forall₂_valuesOf hdecls name
  rcases hvalues.getLast? with ⟨hm, he⟩ | ⟨d, decl, hm, he, x, hx, hxd⟩
  · rw [hm] at hlast
    exact .inl ⟨hlast, he⟩
  · rw [hm] at hlast
    have hmem : d.sorted ∈ valuesOf name (Document.sortedMembers ms []) := by simp [hlast]
    have hwithin := hj _ (mem_valuesOf.mp hmem)
    refine .inr ⟨d.sorted, decl, hlast, he, ?_⟩
    exact (TypeDecl.carries_ofDraft likeness_sorts).ok ⟨d, hx, rfl, hwithin⟩ hxd

/-- A table is read from the sorted document with the same declarations. -/
lemma carries_sorted {i j : ℕ} : Carries (Sorts i j (.table .typeDecl)) (ofDraft i) (ofDraft j)
    SameTypes := by
  rintro x y types ⟨d, hd, rfl, hroom⟩ htypes
  obtain ⟨es, hes, rfl⟩ := Except.map_eq_ok.mp htypes
  obtain ⟨i, after, xs, vs, rfl, rfl, hvs, hread⟩ := Draft.asEntries_iff.mp hes
  obtain ⟨_, ws, ms, ⟨⟩, -, hws, hms, rfl⟩ := Draft.completes_object_left.mp hd
  obtain rfl := Record.keyed_injective (hvs.symm.trans hws)
  obtain ⟨j, rfl, hj⟩ := Document.within_object.mp hroom
  have hlast := sorted_last hms hread hj
  -- so each of the sorted members is read
  have hsorted : ∀ m ∈ Document.sortedMembers ms [], ∃ e : String × TypeDecl,
      m.1 = e.1 ∧ TypeDecl.ofDraft j (.ofDocument m.2) = .ok e.2 := by
    rintro ⟨k, d⟩ hm
    have hmem : d ∈ valuesOf k (Document.sortedMembers ms []) := mem_valuesOf.mpr hm
    rcases hlast k with ⟨hnil, -⟩ | ⟨d', decl, hd', -, hdecl⟩
    · simp [hnil] at hmem
    · obtain rfl : d = d' := by simpa [hd'] using hmem
      exact ⟨(k, decl), rfl, hdecl⟩
  obtain ⟨es', hes'⟩ := List.exists_forall₂_iff.mpr hsorted
  refine ⟨ofList es', Except.map_eq_ok.mpr ⟨es', ?_, rfl⟩, fun name => ?_⟩
  · refine Draft.asEntries_iff.mpr ⟨j, [], _, _, rfl, rfl, Draft.named_ofMembers _, ?_⟩
    exact List.forall₂_map_left_iff.mpr hes'
  · have hvalues : List.Forall₂ (fun d decl => TypeDecl.ofDraft j (.ofDocument d) = .ok decl)
        (valuesOf name (Document.sortedMembers ms [])) (valuesOf name es') :=
      forall₂_valuesOf hes' name
    rw [find?_ofList, find?_ofList]
    rcases hlast name with ⟨hnil, he⟩ | ⟨d, decl, hd, he, hdecl⟩
    · rw [hnil, List.forall₂_nil_left_iff] at hvalues
      rw [he, hvalues]
      rfl
    · rw [hd, List.forall₂_singleton_left_iff] at hvalues
      obtain ⟨decl', hes', hdecl'⟩ := hvalues
      obtain rfl : decl = decl' := Except.ok.inj (hdecl.symm.trans hdecl')
      rw [he, hes']
      rfl

end TypeTable

/-! ### Texts -/

namespace Command

/-- A text that is an object is loaded as the one parser of its sorted document. -/
lemma loadUnits_object {text : String} {ms : List (String × Document)} {v : ParserUnit}
    (hdoc : Document.read text.toList = .ok (.object ms))
    (hv : ParserUnit.ofTree (Document.object ms).sorted = .ok v) : loadUnits text = .ok [v] := by
  rw [Document.sorted] at hv
  simp only [loadUnits, hdoc, Document.sorted, hv]

/-- **A parser is loaded from a text as it is parsed,** though its types may be listed in another
order, and it is lowered in the same way. -/
theorem loadUnits_of_parse {text : String} {ms : List (String × Document)} {u : ParserUnit}
    (hdoc : Document.read text.toList = .ok (.object ms))
    (hu : ParserUnit.parse text.toList = .ok u) :
    ∃ v, loadUnits text = .ok [v] ∧ v.name = u.name ∧ v.types.entries.Perm u.types.entries ∧
      v.params = u.params ∧ v.locals = u.locals ∧ v.states = u.states ∧ v.lower = u.lower := by
  obtain ⟨d, hd, hend⟩ := Except.bind_eq_ok.mp hdoc
  obtain ⟨u', hu', hend'⟩ := Except.bind_eq_ok.mp hu
  -- both read the text to its end
  obtain rfl : d = .object ms := by
    split at hend
    · cases hend; rfl
    · cases hend
  obtain rfl : u' = u := by
    split at hend'
    · cases hend'; rfl
    · cases hend'
  have hsorts : Sorts depthLimit ((Document.object ms).sorted.depth + 1) (.one .unit)
      (Draft.read text.toList).1 (.ofDocument (Document.object ms).sorted) :=
    ⟨.object ms, hd, rfl, Nat.le_succ _⟩
  obtain ⟨v, hv, hsame⟩ :=
    ParserUnit.carries_ofDraft likeness_sorts .tree (fun _ _ => TypeTable.carries_sorted)
      (fun _ => rfl) _ _ u' hsorts hu'
  have hperm : v.types.entries.Perm u'.types.entries :=
    (TypeTable.find?_eq_iff_perm.mp hsame.types).symm
  have hlower : v.lower = u'.lower := by
    calc v.lower = ParserUnit.lower { u' with types := v.types } :=
          congrArg ParserUnit.lower hsame.eq
      _ = u'.lower := ParserUnit.lower_congr_types fun name _ => hsame.types name
  exact ⟨v, loadUnits_object hdoc hv, hsame.name, hperm, hsame.params, hsame.locals, hsame.states,
    hlower⟩

/-- A parser without states, one of whose types is declared twice. -/
def redeclaring : Document :=
  .object [("types", .object [("b", .object [("kind", .string "extern")]),
    ("a", .object [("kind", .string "extern")]),
    ("b", .object [("kind", .string "header"), ("fields", .array [])])]),
    ("states", .array []), ("name", .string "p")]

set_option maxRecDepth 2000 in
lemma read_redeclaring : Document.read redeclaring.render.toList = .ok redeclaring := by
  rw [Document.render, String.toList_ofList]
  cbv

set_option maxRecDepth 2000 in
lemma parse_redeclaring : ParserUnit.parse redeclaring.render.toList =
    .ok ⟨"p", .ofList [("b", .header []), ("a", .external)], [], [], []⟩ := by
  rw [Document.render, String.toList_ofList]
  cbv

theorem loadUnits_of_parse_redeclaring :
    ∃ v, loadUnits redeclaring.render = .ok [v] ∧
      v.types.entries.Perm [("b", .header []), ("a", .external)] ∧
      v.lower =
        ParserUnit.lower ⟨"p", .ofList [("b", .header []), ("a", .external)], [], [], []⟩ := by
  obtain ⟨v, hv, -, htypes, -, -, -, hlower⟩ :=
    loadUnits_of_parse read_redeclaring parse_redeclaring
  exact ⟨v, hv, htypes, hlower⟩

end Command

end PacketSections
