import Mathlib
import PacketSections.Proofs.DraftLikeness

/-!
Parsers do not depend on the order of members, nor on members that belong to no field.

A text is taken as the value that it writes down, without the places of its parts. One may reorder
the members of an object that is read as a part, add or remove members there that belong to no
field, or do so further inside. Each of these steps is a likeness, so the parser that is read stays
the same through any number of them.
-/

namespace PacketSections

open Json

/-! ### Values without places -/

namespace Json

/-- A fault without its place. -/
def Fault.nowhere : Fault := ⟨.tooDeep, 0⟩

def Name.unplaced (name : Name) : Name :=
  ⟨name.reading.mapError fun _ => .nowhere, name.skipping.map fun _ => .nowhere⟩

namespace Draft

mutual

/-- The draft without the text around its parts and without the places of its faults. -/
def unplaced : Draft → Draft
  | null => null
  | bool b => bool b
  | number value => number (value.mapError fun _ => .nowhere)
  | string value => string (value.mapError fun _ => .nowhere)
  | array _ items close => array [] (unplacedItems items) (close.map fun _ => .same .nowhere)
  | object _ members close =>
    object [] (unplacedMembers members) (close.map fun _ => .same .nowhere)
  | broken _ _ => broken none (.same .nowhere)

def unplacedItems : List Draft → List Draft
  | [] => []
  | d :: ds => unplaced d :: unplacedItems ds

def unplacedMembers : List (Name × Draft) → List (Name × Draft)
  | [] => []
  | (name, d) :: ms => (name.unplaced, unplaced d) :: unplacedMembers ms

end

/-- The value that a text writes down, if nothing but blanks comes after it. -/
def value? (text : List Char) : Option Draft :=
  if (skipBlanks ((read text).2.getD [])).isEmpty then some (read text).1.unplaced else none

mutual

lemma complete_unplaced : ∀ {room : ℕ} {x : Draft} {d : Document},
    x.unplaced.complete room = .ok d ↔ x.complete room = .ok d
  | _, .null, _ => Iff.rfl
  | _, .bool _, _ => Iff.rfl
  | _, .number v, _ => by simp [unplaced, complete]
  | _, .string v, _ => by simp [unplaced, complete]
  | 0, .array _ _ _, _ => by simp [unplaced, complete]
  | 0, .object _ _ _, _ => by simp [unplaced, complete]
  | room + 1, .array _ xs close, d => by
    simp only [unplaced, complete, Except.bind_eq_ok, completeItems_unplaced]
    cases close <;> simp
  | room + 1, .object _ xs close, d => by
    simp only [unplaced, complete, Except.bind_eq_ok, completeMembers_unplaced]
    cases close <;> simp
  | _, .broken _ _, _ => by simp [unplaced, complete]

lemma completeItems_unplaced : ∀ {room : ℕ} {xs : List Draft} {ds : List Document},
    completeItems room (unplacedItems xs) = .ok ds ↔ completeItems room xs = .ok ds
  | _, [], _ => Iff.rfl
  | _, x :: xs, _ => by
    simp only [unplacedItems, completeItems, Except.bind_eq_ok, complete_unplaced,
      completeItems_unplaced]

lemma completeMembers_unplaced : ∀ {room : ℕ} {xs : List (Name × Draft)}
    {ms : List (String × Document)},
    completeMembers room (unplacedMembers xs) = .ok ms ↔ completeMembers room xs = .ok ms
  | _, [], _ => Iff.rfl
  | _, (name, x) :: xs, _ => by
    simp only [unplacedMembers, completeMembers, Name.unplaced, Except.bind_eq_ok,
      Except.mapError_eq_ok, complete_unplaced, completeMembers_unplaced]

end

mutual

lemma skipFault_unplaced : ∀ {x : Draft}, x.unplaced.skipFault = none ↔ x.skipFault = none
  | .null | .bool _ | .number _ | .string _ => Iff.rfl
  | .array _ xs _ => by simp [unplaced, skipFault, itemsFault_unplaced]
  | .object _ xs _ => by simp [unplaced, skipFault, membersFault_unplaced]
  | .broken _ _ => by simp [unplaced, skipFault]

lemma itemsFault_unplaced : ∀ {xs : List Draft},
    itemsFault (unplacedItems xs) = none ↔ itemsFault xs = none
  | [] => Iff.rfl
  | x :: xs => by
    simp only [unplacedItems, itemsFault, Option.or_eq_none_iff, skipFault_unplaced,
      itemsFault_unplaced]

lemma membersFault_unplaced : ∀ {xs : List (Name × Draft)},
    membersFault (unplacedMembers xs) = none ↔ membersFault xs = none
  | [] => Iff.rfl
  | (name, x) :: xs => by
    simp only [unplacedMembers, membersFault, Name.unplaced, Option.or_eq_none_iff,
      Option.map_eq_none_iff, skipFault_unplaced, membersFault_unplaced]

end

mutual

lemma unplaced_unplaced : ∀ x : Draft, x.unplaced.unplaced = x.unplaced
  | .null | .bool _ | .broken _ _ => rfl
  | .number v => by cases v <;> rfl
  | .string v => by cases v <;> rfl
  | .array _ xs close => by cases close <;> simp [unplaced, unplacedItems_unplaced xs]
  | .object _ xs close => by cases close <;> simp [unplaced, unplacedMembers_unplaced xs]

lemma unplacedItems_unplaced : ∀ xs : List Draft,
    unplacedItems (unplacedItems xs) = unplacedItems xs
  | [] => rfl
  | x :: xs => by simp [unplacedItems, unplaced_unplaced x, unplacedItems_unplaced xs]

lemma unplacedMembers_unplaced : ∀ xs : List (Name × Draft),
    unplacedMembers (unplacedMembers xs) = unplacedMembers xs
  | [] => rfl
  | (⟨reading, skipping⟩, x) :: xs => by
    cases reading <;> cases skipping <;>
      simp [unplacedMembers, Name.unplaced, Except.mapError, unplaced_unplaced x,
        unplacedMembers_unplaced xs]

end

lemma forall₂_of_unplacedItems {xs ys : List Draft} (h : unplacedItems xs = unplacedItems ys) :
    List.Forall₂ (fun x y => x.unplaced = y.unplaced) xs ys := by
  induction xs generalizing ys with
  | nil =>
    cases ys with
    | nil => exact .nil
    | cons y ys => cases h
  | cons x xs ih =>
    cases ys with
    | nil => cases h
    | cons y ys =>
      obtain ⟨hxy, hs⟩ := List.cons.inj h
      exact .cons hxy (ih hs)

lemma forall₂_of_unplacedMembers {xs ys : List (Name × Draft)} {vs : List (String × Draft)}
    (h : unplacedMembers xs = unplacedMembers ys) (hvs : named xs = Record.keyed vs) :
    ∃ ws, named ys = Record.keyed ws ∧
      List.Forall₂ (fun v w => v.1 = w.1 ∧ v.2.unplaced = w.2.unplaced) vs ws := by
  induction xs generalizing ys vs with
  | nil =>
    obtain rfl : vs = [] := List.map_eq_nil_iff.mp hvs.symm
    cases ys with
    | nil => exact ⟨[], rfl, .nil⟩
    | cons y ys => cases h
  | cons x xs ih =>
    obtain ⟨name, x⟩ := x
    obtain ⟨k, vs, hk, hrest, rfl⟩ := named_cons_eq_keyed.mp hvs
    cases ys with
    | nil => cases h
    | cons y ys =>
      obtain ⟨name', y⟩ := y
      obtain ⟨hxy, hs⟩ := List.cons.inj h
      obtain ⟨ws, hws, hvw⟩ := ih hs hrest
      simp only [Prod.mk.injEq, Name.unplaced, Name.mk.injEq] at hxy
      obtain ⟨⟨hreading, -⟩, hxy⟩ := hxy
      have hk' : name'.reading = .ok k := by
        rw [← Except.mapError_eq_ok, ← hreading, Except.mapError_eq_ok]
        exact hk
      exact ⟨(k, y) :: ws, named_cons_eq_keyed.mpr ⟨k, ws, hk', hws, rfl⟩, .cons ⟨rfl, hxy⟩ hvw⟩

lemma eq_array_of_unplaced {after : List Char} {xs : List Draft} {y : Draft}
    (h : (array after xs none).unplaced = y.unplaced) :
    ∃ after' ys, y = .array after' ys none ∧
      List.Forall₂ (fun x y => x.unplaced = y.unplaced) xs ys := by
  cases y with
  | array after' ys close =>
    cases close with
    | none =>
      simp only [unplaced, array.injEq] at h
      exact ⟨after', ys, rfl, forall₂_of_unplacedItems h.2.1⟩
    | some b => simp [unplaced] at h
  | _ => simp [unplaced] at h

lemma eq_object_of_unplaced {after : List Char} {xs : List (Name × Draft)}
    {vs : List (String × Draft)} {y : Draft} (h : (object after xs none).unplaced = y.unplaced)
    (hvs : named xs = Record.keyed vs) :
    ∃ after' ys ws, y = .object after' ys none ∧ named ys = Record.keyed ws ∧
      List.Forall₂ (fun v w => v.1 = w.1 ∧ v.2.unplaced = w.2.unplaced) vs ws := by
  cases y with
  | object after' ys close =>
    cases close with
    | none =>
      simp only [unplaced, object.injEq] at h
      obtain ⟨ws, hws, hvw⟩ := forall₂_of_unplacedMembers h.2.1 hvs
      exact ⟨after', ys, ws, rfl, hws, hvw⟩
    | some b => simp [unplaced] at h
  | _ => simp [unplaced] at h

end Draft

end Json

/-- The same value in another place. -/
def SameValue (room room' : ℕ) (_ : Form) (x y : Draft) : Prop :=
  room = room' ∧ x.unplaced = y.unplaced

lemma SameValue.completes {room room' : ℕ} {f : Form} {x y : Draft} {d : Document}
    (h : SameValue room room' f x y) (hd : x.Completes room d) : y.Completes room' d := by
  obtain ⟨rfl, h⟩ := h
  rw [Draft.Completes, ← Draft.complete_unplaced, ← h, Draft.complete_unplaced]
  exact hd

lemma likeness_sameValue : Likeness SameValue where
  completes h hd := ⟨_, h.completes hd⟩
  rigid h hd _ := h.completes hd
  null := by
    rintro room room' f x ⟨rfl, h⟩
    cases x <;> simp [Draft.unplaced] at h ⊢
  list := by
    rintro i room' p after xs y ⟨rfl, h⟩
    obtain ⟨after', ys, rfl, hxy⟩ := Draft.eq_array_of_unplaced h
    exact ⟨i, after', ys, rfl, rfl, hxy.imp fun _ _ h => ⟨rfl, h⟩⟩
  items := by
    rintro i room' p after xs y ⟨rfl, h⟩
    obtain ⟨after', ys, rfl, hxy⟩ := Draft.eq_array_of_unplaced h
    exact ⟨i, after', ys, rfl, rfl, .of_forall₂ (hxy.imp fun _ _ h _ => ⟨rfl, h⟩) _⟩
  members := by
    rintro i room' p after xs vs y ⟨rfl, h⟩ hvs
    obtain ⟨after', ys, ws, rfl, hws, hvw⟩ := Draft.eq_object_of_unplaced h hvs
    refine ⟨i, after', ys, ws, rfl, rfl, hws, .of_forall₂ (hvw.imp fun v w h => ?_) _⟩
    refine ⟨h.1, fun _ => ⟨rfl, h.2⟩, fun hv => ?_⟩
    rwa [← Draft.skipFault_unplaced, ← h.2, Draft.skipFault_unplaced]

lemma keepsEntries_sameValue : KeepsEntries SameValue := by
  rintro i room' p after xs vs y ⟨rfl, h⟩ hvs
  obtain ⟨after', ys, ws, rfl, hws, hvw⟩ := Draft.eq_object_of_unplaced h hvs
  exact ⟨i, after', ys, ws, rfl, rfl, hws, hvw.imp fun _ _ h => ⟨h.1, rfl, h.2⟩⟩

/-! ### Rearranging -/

namespace Json.Draft

/-- A list that stands nowhere in particular. -/
def ofList (xs : List Draft) : Draft := .array [] xs none

/-- An object that stands nowhere in particular. -/
def ofNamed (vs : List (String × Draft)) : Draft :=
  .object [] (vs.map fun v => (.ofString v.1, v.2)) none

lemma named_ofString (vs : List (String × Draft)) :
    named (vs.map fun v => (.ofString v.1, v.2)) = Record.keyed vs := by
  induction vs with
  | nil => rfl
  | cons v vs ih => rw [List.map_cons, named_cons_eq_keyed]; exact ⟨v.1, vs, rfl, ih, rfl⟩

lemma exists_completes_ofList {room : ℕ} {xs : List Draft} :
    (∃ d, (ofList xs).Completes (room + 1) d) ↔ ∀ x ∈ xs, ∃ d, x.Completes room d := by
  rw [← List.exists_forall₂_iff]
  constructor
  · rintro ⟨d, hd⟩
    obtain ⟨_, ds, ⟨⟩, -, hds, -⟩ := completes_array_left.mp hd
    exact ⟨ds, hds⟩
  · rintro ⟨ds, hds⟩
    exact ⟨_, completes_array_left.mpr ⟨room, ds, rfl, rfl, hds, rfl⟩⟩

lemma exists_completes_ofNamed {room : ℕ} {vs : List (String × Draft)} :
    (∃ d, (ofNamed vs).Completes (room + 1) d) ↔ ∀ v ∈ vs, ∃ d, v.2.Completes room d := by
  have hnames : (∀ v ∈ vs, ∃ d, v.2.Completes room d) ↔
      ∀ v ∈ vs, ∃ m : String × Document, v.1 = m.1 ∧ v.2.Completes room m.2 := by
    simp
  rw [hnames, ← List.exists_forall₂_iff]
  constructor
  · rintro ⟨d, hd⟩
    obtain ⟨_, ws, ms, ⟨⟩, -, hws, hms, -⟩ := completes_object_left.mp hd
    obtain rfl := Record.keyed_injective ((named_ofString vs).symm.trans hws)
    exact ⟨ms, hms⟩
  · rintro ⟨ms, hms⟩
    exact ⟨_, completes_object_left.mpr ⟨room, vs, ms, rfl, rfl, named_ofString vs, hms, rfl⟩⟩

end Json.Draft

/-- One change of a value that is read as an `f`, where there is room for `room` levels: to the
order of the members of a part, to its members that belong to no field, or to something inside. What
is added is a document for which there is room. -/
inductive Rearranges : ℕ → Form → Draft → Draft → Prop
  | order {room : ℕ} {p : Part} {vs ws : List (String × Draft)} (h : vs.Perm ws) :
    Rearranges (room + 1) (.one p) (.ofNamed vs) (.ofNamed ws)
  | add {room : ℕ} {p : Part} {vs : List (String × Draft)} {k : String} {d : Document}
    (hk : k ∉ (p.fields vs).map Prod.fst) (hd : d.depth ≤ room) :
    Rearranges (room + 1) (.one p) (.ofNamed vs) (.ofNamed ((k, .ofDocument d) :: vs))
  | remove {room : ℕ} {p : Part} {vs : List (String × Draft)} {k : String} {x : Draft}
    (hk : k ∉ (p.fields ((k, x) :: vs)).map Prod.fst) :
    Rearranges (room + 1) (.one p) (.ofNamed ((k, x) :: vs)) (.ofNamed vs)
  | member {room : ℕ} {p : Part} {vs ws : List (String × Draft)} {k : String} {f : Form}
    {x y : Draft} (hk : (k, f) ∈ p.fields (vs ++ (k, x) :: ws)) (h : Rearranges room f x y) :
    Rearranges (room + 1) (.one p) (.ofNamed (vs ++ (k, x) :: ws)) (.ofNamed (vs ++ (k, y) :: ws))
  | item {room : ℕ} {p : Part} {xs zs : List Draft} {f : Form} {x y : Draft}
    (hf : (p.items (xs ++ x :: zs))[xs.length]? = some f) (h : Rearranges room f x y) :
    Rearranges (room + 1) (.one p) (.ofList (xs ++ x :: zs)) (.ofList (xs ++ y :: zs))
  | element {room : ℕ} {p : Part} {xs zs : List Draft} {x y : Draft}
    (h : Rearranges room (.one p) x y) :
    Rearranges (room + 1) (.many p) (.ofList (xs ++ x :: zs)) (.ofList (xs ++ y :: zs))
  | entry {room : ℕ} {p : Part} {vs ws : List (String × Draft)} {k : String} {x y : Draft}
    (h : Rearranges room (.one p) x y) :
    Rearranges (room + 1) (.table p) (.ofNamed (vs ++ (k, x) :: ws))
      (.ofNamed (vs ++ (k, y) :: ws))

namespace Rearranges

variable {room : ℕ} {f : Form} {x y : Draft}

lemma completes (h : Rearranges room f x y) (hx : ∃ d, x.Completes room d) :
    ∃ e, y.Completes room e := by
  induction h with
  | order h =>
    rw [Draft.exists_completes_ofNamed] at hx ⊢
    exact fun v hv => hx v (h.mem_iff.mpr hv)
  | add hk hd =>
    rw [Draft.exists_completes_ofNamed] at hx ⊢
    exact List.forall_mem_cons.mpr ⟨⟨_, Draft.completes_ofDocument hd⟩, hx⟩
  | remove hk =>
    rw [Draft.exists_completes_ofNamed] at hx ⊢
    exact (List.forall_mem_cons.mp hx).2
  | member hk h ih =>
    rw [Draft.exists_completes_ofNamed, List.forall_mem_append, List.forall_mem_cons] at hx ⊢
    exact ⟨hx.1, ih hx.2.1, hx.2.2⟩
  | item hf h ih =>
    rw [Draft.exists_completes_ofList, List.forall_mem_append, List.forall_mem_cons] at hx ⊢
    exact ⟨hx.1, ih hx.2.1, hx.2.2⟩
  | element h ih =>
    rw [Draft.exists_completes_ofList, List.forall_mem_append, List.forall_mem_cons] at hx ⊢
    exact ⟨hx.1, ih hx.2.1, hx.2.2⟩
  | entry h ih =>
    rw [Draft.exists_completes_ofNamed, List.forall_mem_append, List.forall_mem_cons] at hx ⊢
    exact ⟨hx.1, ih hx.2.1, hx.2.2⟩

/-- Nothing can be done to a value that is rigid. -/
lemma not_rigid (h : Rearranges room f x y) {d : Document} (hx : x.Completes room d) :
    ¬ Rigid f d := by
  intro hd
  cases h with
  | order | add | remove | member | entry =>
    obtain ⟨_, _, _, -, -, -, -, rfl⟩ := Draft.completes_object_left.mp hx
    cases hd
  | item | element =>
    obtain ⟨_, _, -, -, -, rfl⟩ := Draft.completes_array_left.mp hx
    cases hd

lemma ne_null (h : Rearranges room f x y) : y ≠ .null := by
  cases h <;> simp [Draft.ofNamed, Draft.ofList]

end Rearranges

/-! ### Members that stay, come and go -/

namespace KeepsFields

variable {R : Form → Draft → Draft → Prop} {fields : Fields} {vs ws : List (String × Draft)}
  {k : String} {f : Form} {x y : Draft}

lemma perm (hR : ∀ f x, R f x x) (h : vs.Perm ws) : KeepsFields R fields vs ws where
  values := by
    intro f _
    have hperm : (valuesOf f.1 vs).Perm (valuesOf f.1 ws) := (h.filter _).map _
    constructor
    · intro hnil
      rw [hnil] at hperm
      exact hperm.nil_eq.symm
    · intro v hv
      rw [hv] at hperm
      exact ⟨v, List.perm_singleton.mp hperm.symm, hR f.2 v⟩
  foreign hskip w hw hwf := hskip w (h.mem_iff.mpr hw) hwf

lemma add (hR : ∀ f x, R f x x) (hk : k ∉ fields.map Prod.fst) (hx : x.skipFault = none) :
    KeepsFields R fields vs ((k, x) :: vs) where
  values := by
    intro f hf
    have hne : k ≠ f.1 := fun heq => hk (List.mem_map.mpr ⟨f, hf, heq.symm⟩)
    exact .of_eq (hR f.2) (by rw [valuesOf_cons, if_neg hne])
  foreign hskip w hw hwf := by
    rcases List.mem_cons.mp hw with rfl | hw
    · exact hx
    · exact hskip w hw hwf

lemma remove (hR : ∀ f x, R f x x) (hk : k ∉ fields.map Prod.fst) :
    KeepsFields R fields ((k, x) :: vs) vs where
  values := by
    intro f hf
    have hne : k ≠ f.1 := fun heq => hk (List.mem_map.mpr ⟨f, hf, heq.symm⟩)
    exact .of_eq (hR f.2) (by rw [valuesOf_cons, if_neg hne])
  foreign hskip w hw hwf := hskip w (List.mem_cons_of_mem _ hw) hwf

/-- The value of a field may be replaced by one that is like it. -/
lemma member (hR : ∀ f x, R f x x) (hnodup : (fields.map Prod.fst).Nodup) (hk : (k, f) ∈ fields)
    (hxy : R f x y) : KeepsFields R fields (vs ++ (k, x) :: ws) (vs ++ (k, y) :: ws) where
  values := by
    intro g hg
    rw [valuesOf_append, valuesOf_append]
    by_cases hkg : k = g.1
    · obtain rfl : g = (k, f) := List.inj_on_of_nodup_map hnodup hg hk hkg.symm
      simp only [valuesOf_cons_self]
      refine ⟨by simp, fun v hv => ?_⟩
      -- if it is the one value of its field, then there are none before or after it
      obtain ⟨hvs, hws⟩ : valuesOf k vs = [] ∧ x :: valuesOf k ws = [v] := by
        simpa [List.append_eq_singleton_iff] using hv
      obtain ⟨rfl, hnil⟩ := List.cons.inj hws
      exact ⟨y, by rw [hvs, hnil, List.nil_append], hxy⟩
    · exact .of_eq (hR g.2) (by rw [valuesOf_cons, valuesOf_cons, if_neg hkg, if_neg hkg])
  foreign hskip w hw hwf := by
    rw [List.mem_append, List.mem_cons] at hw
    rcases hw with hw | rfl | hw
    · exact hskip w (by simp [hw]) hwf
    · exact absurd (List.mem_map.mpr ⟨_, hk, rfl⟩) hwf
    · exact hskip w (by simp [hw]) hwf

end KeepsFields

lemma Part.nodup_fields (p : Part) (vs : List (String × Draft)) :
    ((p.fields vs).map Prod.fst).Nodup := by
  have hrecord : ∀ fs, p.shape = .record fs → (fs.map Prod.fst).Nodup := by
    rintro fs hp
    cases p <;> cases hp <;> decide
  have htagged : ∀ table, p.shape = .tagged table → ∀ e ∈ table, (e.2.map Prod.fst).Nodup := by
    rintro table hp
    cases p <;> cases hp <;> decide
  rw [Part.fields]
  cases hp : p.shape with
  | record fs => exact hrecord fs hp
  | tagged table =>
    unfold Shape.fields
    split
    · next hshape => cases hshape
    · next t hshape _ =>
      cases hshape
      refine List.nodup_cons.mpr ⟨Part.tagName_notMem hp t, ?_⟩
      exact Shape.variant_satisfies (P := fun fs => (fs.map Prod.fst).Nodup) (by simp)
        (htagged table hp) t
    · exact List.nodup_nil

/-- At most one change. -/
def Changes (room room' : ℕ) (f : Form) (x y : Draft) : Prop :=
  room = room' ∧ (x = y ∨ Rearranges room f x y)

lemma Changes.refl (room : ℕ) (f : Form) (x : Draft) : Changes room room f x x := ⟨rfl, .inl rfl⟩

lemma likeness_changes : Likeness Changes where
  completes := by
    rintro room _ f x y d ⟨rfl, rfl | h⟩ hd
    · exact ⟨d, hd⟩
    · exact h.completes ⟨d, hd⟩
  rigid := by
    rintro room _ f x y d ⟨rfl, rfl | h⟩ hd hrigid
    · exact hd
    · exact absurd hrigid (h.not_rigid hd)
  null := by
    rintro room _ f x ⟨rfl, rfl | h⟩
    · rfl
    · exact absurd rfl h.ne_null
  list := by
    rintro i _ p after xs y ⟨rfl, rfl | h⟩
    · exact ⟨i, after, xs, rfl, rfl, List.forall₂_same.mpr fun x _ => .refl i _ x⟩
    · generalize hx : Draft.array after xs none = x at h
      cases h with
      | element h =>
        cases hx
        refine ⟨i, [], _, rfl, rfl, List.rel_append ?_ (.cons ⟨rfl, .inr h⟩ ?_)⟩
        · exact List.forall₂_same.mpr fun x _ => .refl i _ x
        · exact List.forall₂_same.mpr fun x _ => .refl i _ x
  items := by
    rintro i _ p after xs y ⟨rfl, rfl | h⟩
    · exact ⟨i, after, xs, rfl, rfl,
        .of_forall₂ (List.forall₂_same.mpr fun x _ f => .refl i f x) _⟩
    · generalize hx : Draft.array after xs none = x at h
      cases h with
      | item hf h =>
        cases hx
        exact ⟨i, [], _, rfl, rfl, .replace (Changes.refl i) hf ⟨rfl, .inr h⟩⟩
      | _ => cases hx
  members := by
    rintro i _ p after xs vs y ⟨rfl, rfl | h⟩ hvs
    · exact ⟨i, after, xs, vs, rfl, rfl, hvs, .perm (Changes.refl i) (.refl vs)⟩
    · -- the members of either side stand nowhere in particular
      have hnamed : ∀ {vs' ws}, Draft.object after xs none = .ofNamed vs' →
          KeepsFields (Changes i i) (p.fields vs') vs' ws →
          ∃ j after' ys ws', i + 1 = j + 1 ∧ Draft.ofNamed ws = .object after' ys none ∧
            Draft.named ys = Record.keyed ws' ∧ KeepsFields (Changes i j) (p.fields vs) vs ws' := by
        intro vs' ws hx hkeeps
        cases hx
        obtain rfl := Record.keyed_injective (hvs.symm.trans (Draft.named_ofString vs'))
        exact ⟨i, [], _, ws, rfl, rfl, Draft.named_ofString ws, hkeeps⟩
      generalize hx : Draft.object after xs none = x at h
      cases h with
      | order h => exact hnamed hx (.perm (Changes.refl i) h)
      | @add _ _ _ _ d hk hd =>
        exact hnamed hx (.add (Changes.refl i) hk (Draft.skipFault_ofDocument d))
      | remove hk => exact hnamed hx (.remove (Changes.refl i) hk)
      | member hk h =>
        exact hnamed hx (.member (Changes.refl i) (p.nodup_fields _) hk ⟨rfl, .inr h⟩)
      | item => cases hx

lemma keepsEntries_changes : KeepsEntries Changes := by
  rintro i _ p after xs vs y ⟨rfl, rfl | h⟩ hvs
  · exact ⟨i, after, xs, vs, rfl, rfl, hvs, List.forall₂_same.mpr fun v _ => ⟨rfl, .refl i _ v.2⟩⟩
  · generalize hx : Draft.object after xs none = x at h
    cases h with
    | entry h =>
      cases hx
      obtain rfl := Record.keyed_injective (hvs.symm.trans (Draft.named_ofString _))
      refine ⟨i, [], _, _, rfl, rfl, Draft.named_ofString _,
        List.rel_append ?_ (.cons ⟨rfl, rfl, .inr h⟩ ?_)⟩
      · exact List.forall₂_same.mpr fun v _ => ⟨rfl, .refl i _ v.2⟩
      · exact List.forall₂_same.mpr fun v _ => ⟨rfl, .refl i _ v.2⟩

/-! ### Texts -/

namespace ParserUnit

lemma ofDraft_unplaced {x : Draft} {u : ParserUnit} :
    ofDraft .text depthLimit x.unplaced = .ok u ↔ ofDraft .text depthLimit x = .ok u := by
  have h := Draft.unplaced_unplaced x
  constructor
  · exact ofDraft_of_like likeness_sameValue keepsEntries_sameValue ⟨rfl, h⟩
  · exact ofDraft_of_like likeness_sameValue keepsEntries_sameValue ⟨rfl, h.symm⟩

/-- A parser is read from the value of its text. -/
lemma parse_iff {text : List Char} {u : ParserUnit} :
    parse text = .ok u ↔ ∃ x, Draft.value? text = some x ∧ ofDraft .text depthLimit x = .ok u := by
  simp only [parse, Draft.value?, Except.bind_eq_ok]
  cases skipBlanks ((Draft.read text).2.getD []) with
  | nil => simp [ofDraft_unplaced]
  | cons c cs => simp

lemma ofDraft_rearranged {x y : Draft} {u : ParserUnit}
    (hxy : Relation.ReflTransGen (Rearranges depthLimit (.one .unit)) x y)
    (hu : ofDraft .text depthLimit x = .ok u) : ofDraft .text depthLimit y = .ok u := by
  induction hxy with
  | refl => exact hu
  | tail _ hstep ih =>
    exact ofDraft_of_like likeness_changes keepsEntries_changes ⟨rfl, .inr hstep⟩ ih

/-- **What a parser is read as depends neither on the order of members nor on members that belong to
no field.** A text from which a parser is read writes down a value, and all texts of rearranged
values are read as the same parser. -/
theorem parse_rearranged {s : List Char} {u : ParserUnit} (hu : parse s = .ok u) :
    ∃ x, Draft.value? s = some x ∧
      ∀ t y, Draft.value? t = some y →
        Relation.ReflTransGen (Rearranges depthLimit (.one .unit)) x y → parse t = .ok u := by
  obtain ⟨x, hx, hxu⟩ := parse_iff.mp hu
  refine ⟨x, hx, fun t y hy hxy => ?_⟩
  exact parse_iff.mpr ⟨y, hy, ofDraft_rearranged hxy hxu⟩

/-- The document of a parser with one statement. -/
def oneStatement (statement : Document) : Document :=
  .object [("name", .string "p"), ("states", .array
    [.object [("name", .string "start"), ("statements", .array [statement])]])]

/-- A call whose members, and those of its method, begin with their tags. -/
def plainCall : Document :=
  .object [("kind", .string "call"), ("method", .object
    [("kind", .string "path"), ("name", .string "f"), ("span", .null)])]

/-- The same call with the tags last and with a note. -/
def notedCall : Document :=
  .object [("note", .array [.null]), ("method", .object
    [("name", .string "f"), ("span", .null), ("kind", .string "path")]), ("kind", .string "call")]

lemma oneStatement_rearranges {x y : Document}
    (h : Rearranges 123 (.one .statement) (.ofDocument x) (.ofDocument y)) :
    Rearranges depthLimit (.one .unit) (.ofDocument (oneStatement x))
      (.ofDocument (oneStatement y)) := by
  have hstatements := @Rearranges.element 123 .statement [] [] _ _ h
  have hstate := @Rearranges.member 124 .state [("name", .string (.ok "start"))] [] "statements" _ _
    _ (by simp [Part.fields, Part.shape, Shape.fields]) hstatements
  have hstates := @Rearranges.element 125 .state [] [] _ _ hstate
  exact @Rearranges.member 126 .unit [("name", .string (.ok "p"))] [] "states" _ _ _
    (by simp [Part.fields, Part.shape, Shape.fields]) hstates

lemma plainCall_rearranged : Relation.ReflTransGen
    (fun x y => Rearranges 123 (.one .statement) (.ofDocument x) (.ofDocument y)) plainCall
    notedCall := by
  -- the tag of the method goes last, then that of the call, and then the note comes in
  let method : Document :=
    .object [("name", .string "f"), ("span", .null), ("kind", .string "path")]
  have hmethod : Rearranges 123 (.one .statement) (.ofDocument plainCall)
      (.ofDocument (.object [("kind", .string "call"), ("method", method)])) :=
    @Rearranges.member 122 .statement [("kind", .string (.ok "call"))] [] "method" (.one .expr) _ _
      (by decide) <|
    @Rearranges.order 121 .expr
      [("kind", .string (.ok "path")), ("name", .string (.ok "f")), ("span", .null)] _
      (List.perm_append_singleton _ _).symm
  have htag : Rearranges 123 (.one .statement)
      (.ofDocument (.object [("kind", .string "call"), ("method", method)]))
      (.ofDocument (.object [("method", method), ("kind", .string "call")])) :=
    @Rearranges.order 122 .statement
      [("kind", .string (.ok "call")), ("method", .ofDocument method)] _
      (List.perm_append_singleton _ _).symm
  have hnote : Rearranges 123 (.one .statement)
      (.ofDocument (.object [("method", method), ("kind", .string "call")]))
      (.ofDocument notedCall) :=
    @Rearranges.add 122 .statement [("method", .ofDocument method), ("kind", .string (.ok "call"))]
      "note" (.array [.null]) (by decide) (by decide)
  exact .tail (.tail (.single hmethod) htag) hnote

set_option maxRecDepth 2000 in
lemma value?_plainCall : Draft.value? (oneStatement plainCall).chars =
    some (.ofDocument (oneStatement plainCall)) := by cbv

set_option maxRecDepth 2000 in
lemma value?_notedCall : Draft.value? (oneStatement notedCall).chars =
    some (.ofDocument (oneStatement notedCall)) := by cbv

set_option maxRecDepth 2000 in
lemma ofDraft_plainCall : ofDraft .text depthLimit (.ofDocument (oneStatement plainCall)) =
    .ok ⟨"p", .empty, [], [], [⟨"start", [.call (.path "f" none) [] none], none, none⟩]⟩ := by cbv

/-- Tags may come last, a place may stand anywhere among the fields, and a note is ignored. -/
theorem parse_rearranged_call :
    parse (oneStatement notedCall).chars =
      .ok ⟨"p", .empty, [], [], [⟨"start", [.call (.path "f" none) [] none], none, none⟩]⟩ := by
  have hsteps : Relation.ReflTransGen (Rearranges depthLimit (.one .unit))
      (.ofDocument (oneStatement plainCall)) (.ofDocument (oneStatement notedCall)) :=
    Relation.ReflTransGen.lift (fun x => Draft.ofDocument (oneStatement x))
      (fun _ _ => oneStatement_rearranges) _ _ plainCall_rearranged
  obtain ⟨x, hx, hrearranged⟩ :=
    parse_rearranged (parse_iff.mpr ⟨_, value?_plainCall, ofDraft_plainCall⟩)
  obtain rfl := Option.some.inj (value?_plainCall.symm.trans hx)
  exact hrearranged _ _ value?_notedCall hsteps

end ParserUnit

end PacketSections
