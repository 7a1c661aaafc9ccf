import Mathlib
import PacketSections.Json.Load
import PacketSections.Proofs.Reading
import PacketSections.Source.Encode

/-!
Reading back what has been written, part by part.

A reader gives a value under a condition: it returns the value where the condition holds and fails
where it does not. The conditions of the parts add up to the condition of the whole. `Record.Takes`
follows a record along the members that were written for it, one field at a time. Complete documents
and drafts share it: they differ in how a part stands for the document that was written.
-/

namespace PacketSections.Json

variable {σ α β : Type}

/-- The computation returns `a` if the condition holds, and fails otherwise. -/
structure Gives (x : Decoded α) (P : Prop) (a : α) : Prop where
  ok : P → x = .ok a
  error : ¬ P → ∃ e, x = .error e

namespace Gives

variable {x : Decoded α} {P Q : Prop} {a : α}

lemma pure (a : α) : Gives (.ok a) True a := ⟨fun _ => rfl, fun h => (h trivial).elim⟩

lemma iff (h : Gives x P a) (hPQ : Q ↔ P) : Gives x Q a :=
  ⟨fun hq => h.ok (hPQ.1 hq), fun hq => h.error (mt hPQ.2 hq)⟩

lemma congr {y : Decoded α} (hxy : x = y) (h : Gives y P a) : Gives x P a := hxy ▸ h

lemma bind {f : α → Decoded β} {b : β} (h : Gives x P a) (hf : Gives (f a) Q b) :
    Gives (x >>= f) (P ∧ Q) b := by
  by_cases hp : P
  · rw [h.ok hp]
    exact hf.iff (and_iff_right hp)
  · obtain ⟨e, he⟩ := h.error hp
    exact ⟨fun hpq => absurd hpq.1 hp, fun _ => ⟨e, by rw [he]; rfl⟩⟩

lemma map (f : α → β) (h : Gives x P a) : Gives (x.map f) P (f a) := by
  by_cases hp : P
  · rw [h.ok hp]
    exact ⟨fun _ => rfl, fun hn => absurd hp hn⟩
  · obtain ⟨e, he⟩ := h.error hp
    exact ⟨fun hp' => absurd hp' hp, fun _ => ⟨e, by rw [he]; rfl⟩⟩

lemma mapM {f : σ → Decoded α} {R : σ → α → Prop} {P : α → Prop} {xs : List σ} {as : List α}
    (hxs : List.Forall₂ R xs as) (h : ∀ a ∈ as, ∀ x, R x a → Gives (f x) (P a) a) :
    Gives (xs.mapM f) (∀ a ∈ as, P a) as := by
  induction hxs with
  | nil => exact (pure []).iff (by simp)
  | @cons x a xs as hx _ ih =>
    have htail : Gives (xs.mapM f >>= fun bs => .ok (a :: bs)) ((∀ b ∈ as, P b) ∧ True) (a :: as) :=
      (ih fun b hb => h b (List.mem_cons_of_mem a hb)).bind (pure _)
    rw [List.mapM_cons]
    exact ((h a List.mem_cons_self x hx).bind htail).iff (by simp)

end Gives

/-- Whatever stands for the document is read as `a`, under the condition. -/
def ReadsAs (R : σ → Document → Prop) (decode : σ → Decoded α) (d : Document) (P : Prop) (a : α) :
    Prop :=
  ∀ x, R x d → Gives (decode x) P a

lemma ReadsAs.iff {R : σ → Document → Prop} {decode : σ → Decoded α} {d : Document} {P Q : Prop}
    {a : α} (h : ReadsAs R decode d P a) (hPQ : Q ↔ P) : ReadsAs R decode d Q a :=
  fun x hx => (h x hx).iff hPQ

/-- The draft shows the document, which has no more levels than there is room for. -/
def Fits (room : ℕ) (x : Draft) (d : Document) : Prop := Shows x d ∧ d.depth ≤ room

/-- A list that fits has one level more than its items. -/
lemma Fits.array {room : ℕ} {x : Draft} {ds : List Document} (h : Fits room x (.array ds)) :
    ∃ n after xs, room = n + 1 ∧ x = .array after xs none ∧ List.Forall₂ (Fits n) xs ds := by
  obtain ⟨hs, hd⟩ := h
  cases hs with
  | @array after xs _ hs =>
    rw [Document.depth] at hd
    refine ⟨room - 1, after, xs, by omega, rfl, ?_⟩
    have hd : Document.itemsDepth ds ≤ room - 1 := by omega
    clear after
    induction ds generalizing xs with
    | nil => cases hs; exact .nil
    | cons d ds ih =>
      simp only [Document.itemsDepth, max_le_iff] at hd
      obtain _ | ⟨h, hs⟩ := hs
      exact .cons ⟨h, hd.1⟩ (ih (by omega) hs hd.2)

/-- An object that fits has one level more than its members. -/
lemma Fits.object {room : ℕ} {x : Draft} {ms : List (String × Document)}
    (h : Fits room x (.object ms)) :
    ∃ n after xs, room = n + 1 ∧ x = .object after xs none ∧ ShowsMembers xs ms ∧
      Document.membersDepth ms ≤ n := by
  obtain ⟨hs, hd⟩ := h
  rw [Document.depth] at hd
  cases hs with
  | @object after xs _ hs => exact ⟨room - 1, after, xs, by omega, rfl, hs, by omega⟩

/-- A member that may have been left out is the named value, if there is one. -/
@[simp] lemma mem_optionalMember {name : String} {o : Option Document} {m : String × Document} :
    m ∈ optionalMember name o ↔ ∃ d, o = some d ∧ m = (name, d) := by
  cases o <;> simp [optionalMember]

/-! ### Records -/

/-- Named parts stand for members of the same names. -/
def Stand (R : σ → Document → Prop) (xs : List (String × σ)) (ms : List (String × Document)) :
    Prop :=
  List.Forall₂ (fun x m => x.1 = m.1 ∧ R x.2 m.2) xs ms

lemma Stand.names {R : σ → Document → Prop} {xs : List (String × σ)}
    {ms : List (String × Document)} (h : Stand R xs ms) : xs.map Prod.fst = ms.map Prod.fst := by
  induction h with
  | nil => rfl
  | cons h _ ih => simp [h.1, ih]

lemma stand_self (ms : List (String × Document)) : Stand Eq ms ms :=
  List.forall₂_same.2 fun _ _ => ⟨rfl, rfl⟩

namespace Record

/-- The parts with their names as a record reads them. -/
def keyed (xs : List (String × σ)) : List (Decoded String × σ) := xs.map fun x => (.ok x.1, x.2)

lemma fill_append (r : Record σ α) (skip : σ → Decoded Unit) (s : r.Slots)
    (xs ys : List (Decoded String × σ)) :
    r.fill skip s (xs ++ ys) = r.fill skip s xs >>= fun t => r.fill skip t ys := by
  induction xs generalizing s with
  | nil => rfl
  | cons x xs ih =>
    obtain ⟨key, v⟩ := x
    simp only [List.cons_append, fill, bind_assoc]
    congr 1
    funext k
    cases r.put k v s with
    | none => simp [ih, bind_assoc]
    | some next => simp [ih, bind_assoc]

lemma fill_keyed_cons (r : Record σ α) (skip : σ → Decoded Unit) (s : r.Slots) (x : String × σ)
    (xs : List (String × σ)) :
    r.fill skip s (keyed (x :: xs)) =
      match r.put x.1 x.2 s with
      | some next => next >>= fun t => r.fill skip t (keyed xs)
      | none => skip x.2 >>= fun _ => r.fill skip s (keyed xs) :=
  rfl

/-- Members of other names pass a field by. -/
lemma fill_field (r : Record σ (α → β)) (f : Field σ α) (skip : σ → Decoded Unit) (s : r.Slots)
    (o : Option α) (xs : List (String × σ)) (hf : f.name ∉ xs.map Prod.fst) :
    (r.field f).fill skip (s, o) (keyed xs) =
      (r.fill skip s (keyed xs)).map fun t => (t, o) := by
  induction xs generalizing s with
  | nil => rfl
  | cons x xs ih =>
    simp only [List.map_cons, List.mem_cons, not_or] at hf
    have hput : (r.field f).put x.1 x.2 (s, o) =
        (r.put x.1 x.2 s).map fun d => d.map fun t => (t, o) := by
      simp [field, Ne.symm hf.1]
    refine (fill_keyed_cons (r.field f) skip (s, o) x xs).trans ?_
    rw [hput, fill_keyed_cons]
    cases r.put x.1 x.2 s with
    | none =>
      cases skip x.2 with
      | error e => rfl
      | ok _ => exact ih s hf.2
    | some next =>
      cases next with
      | error e => rfl
      | ok t => exact ih t hf.2

/-- Members in the order of the fields are taken as `a`, under the condition. -/
def Takes (r : Record σ α) (R : σ → Document → Prop) (ms : List (String × Document)) (P : Prop)
    (a : α) : Prop :=
  ∀ skip xs, Stand R xs ms →
    ∃ s, Gives (r.fill skip r.empty (keyed xs)) P s ∧ r.finish s = .ok a

namespace Takes

variable {R : σ → Document → Prop} {r : Record σ (α → β)} {ms : List (String × Document)}
  {P Q : Prop} {g : α → β} {a : α}

lemma of (a : α) : (Record.of a).Takes R [] True a := by
  rintro skip xs ⟨⟩
  exact ⟨(), Gives.pure _, rfl⟩

lemma iff {r : Record σ α} (h : r.Takes R ms P a) (hPQ : Q ↔ P) : r.Takes R ms Q a := by
  intro skip xs hxs
  obtain ⟨s, hs, hfin⟩ := h skip xs hxs
  exact ⟨s, hs.iff hPQ, hfin⟩

/-- A field whose member comes next. -/
lemma field {f : Field σ α} {d : Document} (h : r.Takes R ms P g)
    (hd : ReadsAs R f.decode d Q a) (hf : f.name ∉ ms.map Prod.fst) :
    (r.field f).Takes R (ms ++ [(f.name, d)]) (P ∧ Q) (g a) := by
  intro skip xs hxs
  -- the last part is the field's; those before it leave its slot empty
  have hys : Stand R (xs.take ms.length) ms := List.forall₂_take_append _ _ _ hxs
  have hz : Stand R (xs.drop ms.length) [(f.name, d)] := List.forall₂_drop_append _ _ _ hxs
  rw [← List.take_append_drop ms.length xs]
  generalize xs.take ms.length = ys at hys
  generalize xs.drop ms.length = zs at hz
  obtain _ | ⟨⟨hk, hx⟩, ⟨⟩⟩ := hz
  rename_i z
  obtain ⟨s, hs, hfin⟩ := h skip ys hys
  refine ⟨(s, some a), ?_, by simp [Record.field, hfin, bind, Except.bind]⟩
  have hput : (r.field f).put z.1 z.2 (s, none) =
      some ((f.decode z.2).map fun a => (s, some a)) := by
    simp [Record.field, hk]
  have hlast : Gives ((r.field f).fill skip (s, none) (keyed [z])) Q (s, some a) := by
    refine Gives.congr ?_ ((hd z.2 hx).map fun a => (s, some a))
    refine (fill_keyed_cons (r.field f) skip (s, none) z []).trans ?_
    rw [hput]
    cases f.decode z.2 <;> rfl
  have hfirst : Gives ((r.field f).fill skip (r.field f).empty (keyed ys)) P (s, none) :=
    .congr (fill_field r f skip r.empty none ys (by rwa [hys.names])) (hs.map _)
  rw [keyed, List.map_append, fill_append]
  exact hfirst.bind hlast

/-- A field that has been left out. -/
lemma skip {f : Field σ α} (h : r.Takes R ms P g) (ha : f.absent = some a)
    (hf : f.name ∉ ms.map Prod.fst) : (r.field f).Takes R ms P (g a) := by
  intro skip xs hxs
  obtain ⟨s, hs, hfin⟩ := h skip xs hxs
  refine ⟨(s, none), ?_, by simp [Record.field, hfin, ha, bind, Except.bind]⟩
  exact .congr (fill_field r f skip r.empty none xs (by rwa [hxs.names])) (hs.map _)

/-- A field that is written only when its value is there. -/
lemma option {f : Field σ (Option α)} {r : Record σ (Option α → β)} {g : Option α → β}
    {o : Option α} {Q : α → Prop} {encode : α → Document} (h : r.Takes R ms P g)
    (hd : ∀ a ∈ o, ReadsAs R f.decode (encode a) (Q a) (some a)) (ha : f.absent = some none)
    (hf : f.name ∉ ms.map Prod.fst) :
    (r.field f).Takes R (ms ++ optionalMember f.name (o.map encode)) (P ∧ ∀ a ∈ o, Q a) (g o) := by
  cases o with
  | none => simpa [optionalMember] using h.skip ha hf
  | some a => simpa [optionalMember] using h.field (hd a rfl) hf

lemma ofMembers {r : Record σ α} {xs : List (String × σ)} (h : r.Takes R ms P a)
    (hxs : Stand R xs ms) (skip : σ → Decoded Unit) :
    Gives (r.ofMembers skip none (keyed xs)) P a := by
  obtain ⟨s, hs, hfin⟩ := h skip xs hxs
  exact (hs.bind ⟨fun _ => hfin, fun h => (h trivial).elim⟩).iff (by simp)

end Takes

end Record

namespace Document

lemma asString_string (s : String) : ReadsAs Eq asString (.string s) True s := by
  rintro _ rfl
  exact .pure s

lemma asBool_bool (b : Bool) : ReadsAs Eq asBool (.bool b) True b := by
  rintro _ rfl
  exact .pure b

lemma word32_word (w : UInt32) : Number.word32 (.natural w.toUInt64) = .ok w := by
  have hlt : w.toUInt64.toNat < Nat.pow 2 32 := by simpa using w.toNat_lt
  rw [Number.word32, if_pos hlt, UInt32.toUInt32_toUInt64]

lemma asWord32_word (w : UInt32) : ReadsAs Eq asWord32 (.ofWord w.toUInt64) True w := by
  rintro _ rfl
  exact .congr (word32_word w) (.pure w)

lemma asWord64_word (w : UInt64) : ReadsAs Eq asWord64 (.ofWord w) True w := by
  rintro _ rfl
  exact .pure w

lemma asOption_some {decode : Document → Decoded α} {d : Document} {P : Prop} {a : α}
    (h : ReadsAs Eq decode d P a) (hd : d ≠ .null) :
    ReadsAs Eq (asOption decode) d P (some a) := by
  rintro x rfl
  refine .congr ?_ ((h _ rfl).map some)
  cases x with
  | null => exact absurd rfl hd
  | _ => rfl

lemma asList_array {decode : Document → Decoded α} {encode : α → Document} {P : α → Prop}
    {as : List α} (h : ∀ a ∈ as, ReadsAs Eq decode (encode a) (P a) a) :
    ReadsAs Eq (asList decode) (.array (as.map encode)) (∀ a ∈ as, P a) as := by
  rintro _ rfl
  refine Gives.mapM (R := fun x a => x = encode a) ?_ h
  rw [List.forall₂_map_left_iff, List.forall₂_same]
  exact fun _ _ => rfl

lemma asRecord_object {r : Record Document α} {ms : List (String × Document)} {P : Prop} {a : α}
    (name : String) (h : r.Takes Eq ms P a) : ReadsAs Eq (asRecord name r) (.object ms) P a := by
  rintro _ rfl
  exact h.ofMembers (stand_self ms) _

end Document

namespace Draft

variable {room : ℕ}

lemma asString_string (s : String) : ReadsAs (Fits room) asString (.string s) True s := by
  rintro _ ⟨⟨⟩, -⟩
  exact .pure s

lemma asWord32_word (w : UInt32) : ReadsAs (Fits room) asWord32 (.ofWord w.toUInt64) True w := by
  rintro _ ⟨⟨⟩, -⟩
  exact .congr (Document.word32_word w) (.pure w)

lemma asOption_some {decode : Draft → Decoded α} {d : Document} {P : Prop} {a : α}
    (h : ReadsAs (Fits room) decode d P a) (hd : d ≠ .null) :
    ReadsAs (Fits room) (asOption decode) d P (some a) := by
  intro x hx
  refine .congr ?_ ((h x hx).map some)
  obtain ⟨hs, -⟩ := hx
  cases hs with
  | null => exact absurd rfl hd
  | _ => rfl

lemma asList_array {decode : ℕ → Draft → Decoded α} {encode : α → Document} {P : α → Prop}
    {as : List α} (h : ∀ room, ∀ a ∈ as, ReadsAs (Fits room) (decode room) (encode a) (P a) a) :
    ReadsAs (Fits room) (asList room decode) (.array (as.map encode)) (∀ a ∈ as, P a) as := by
  intro x hx
  obtain ⟨room, after, xs, rfl, rfl, hxs⟩ := hx.array
  rw [List.forall₂_map_right_iff] at hxs
  exact ((Gives.mapM hxs (h room)).bind (Gives.pure as)).iff (by simp)

lemma named_fits {xs : List (Name × Draft)} {ms : List (String × Document)}
    (hs : ShowsMembers xs ms) (hd : Document.membersDepth ms ≤ room) :
    ∃ ys, named xs = Record.keyed ys ∧ Stand (Fits room) ys ms := by
  induction ms generalizing xs with
  | nil => cases hs; exact ⟨[], rfl, .nil⟩
  | cons m ms ih =>
    obtain _ | ⟨hk, h, hs⟩ := hs
    simp only [Document.membersDepth, max_le_iff] at hd
    obtain ⟨ys, hys, hst⟩ := ih hs hd.2
    refine ⟨(_, _) :: ys, ?_, .cons ⟨rfl, h, hd.1⟩ hst⟩
    rw [Record.keyed, List.map_cons, ← Record.keyed, ← hys]
    simp [named, hk, Decoded.ofFault]

lemma asRecord_object {r : ℕ → Record Draft α} {ms : List (String × Document)} {P : Prop} {a : α}
    (origin : Origin) (name : String) (h : ∀ room, (r room).Takes (Fits room) ms P a) :
    ReadsAs (Fits room) (asRecord origin room name r) (.object ms) P a := by
  intro x hx
  obtain ⟨room, after, xs, rfl, rfl, hs, hd⟩ := hx.object
  obtain ⟨ys, hys, hst⟩ := named_fits hs hd
  refine .congr ?_ ((h room).ofMembers hst skip)
  simp [asRecord, enter, hys, stop]

/-- Members whose names are data. -/
lemma asEntries_object {item : ℕ → Draft → Decoded α} {encode : α → Document}
    {es : List (String × α)} {P : α → Prop}
    (h : ∀ room, ∀ e ∈ es, ReadsAs (Fits room) (item room) (encode e.2) (P e.2) e.2) :
    ReadsAs (Fits room) (asEntries room item) (.object (es.map fun e => (e.1, encode e.2)))
      (∀ e ∈ es, P e.2) es := by
  intro x hx
  obtain ⟨room, after, xs, rfl, rfl, hs, hd⟩ := hx.object
  obtain ⟨ys, hys, hst⟩ := named_fits hs hd
  have hmem : ∀ e ∈ es, ∀ y : Decoded String × Draft,
      y.1 = .ok e.1 ∧ Fits room y.2 (encode e.2) →
        Gives (do let k ← y.1; return (k, ← item room y.2)) (P e.2) e := by
    rintro ⟨k, a⟩ he ⟨_, y⟩ ⟨rfl, hy⟩
    exact ((h room _ he y hy).bind (Gives.pure (k, a))).iff (by simp)
  have hrel : List.Forall₂
      (fun (y : Decoded String × Draft) e => y.1 = .ok e.1 ∧ Fits room y.2 (encode e.2))
      (named xs) es := by
    rw [hys, Record.keyed, List.forall₂_map_left_iff]
    rw [Stand, List.forall₂_map_right_iff] at hst
    exact hst.imp fun y e hy => ⟨by rw [hy.1], hy.2⟩
  exact ((Gives.mapM hrel hmem).bind (Gives.pure es)).iff (by simp)

end Draft

/-! ### Tagged objects -/

/-- A tagged object whose members are read as `a` by the variant of that tag. -/
def TaggedAs (vs : List (Variant α)) (d : Document) (P : Prop) (a : α) : Prop :=
  ∃ tag ms v, d = taggedObject tag ms ∧ tagName ∉ ms.map Prod.fst ∧
    vs.find? (fun v => v.tag == tag) = some v ∧ Gives (v.ofMembers ms) P a

lemma TaggedAs.iff {vs : List (Variant α)} {d : Document} {P Q : Prop} {a : α}
    (h : TaggedAs vs d P a) (hPQ : Q ↔ P) : TaggedAs vs d Q a := by
  obtain ⟨tag, ms, v, hd, hk, hv, h⟩ := h
  exact ⟨tag, ms, v, hd, hk, hv, h.iff hPQ⟩

lemma TaggedAs.carrying {vs : List (Variant α)} {tag label : String} {r : Record Document α}
    {ms : List (String × Document)} {P : Prop} {a : α} (h : r.Takes Eq ms P a)
    (hv : vs.find? (fun v => v.tag == tag) = some (.carrying tag label r))
    (hk : tagName ∉ ms.map Prod.fst) : TaggedAs vs (taggedObject tag ms) P a :=
  ⟨tag, ms, _, rfl, hk, hv, h.ofMembers (stand_self ms) _⟩

lemma TaggedAs.bare {vs : List (Variant α)} {tag : String} {a : α}
    (hv : vs.find? (fun v => v.tag == tag) = some (.bare tag a)) :
    TaggedAs vs (taggedObject tag []) True a :=
  ⟨tag, [], _, rfl, by simp, hv, .pure a⟩

lemma Document.splitTag_others (vs : List (Variant α)) (v : Option (Variant α))
    {ms : List (String × Document)} (h : tagName ∉ ms.map Prod.fst) :
    splitTag vs v ms = .ok (v, ms) := by
  induction ms with
  | nil => rfl
  | cons m ms ih =>
    simp only [List.map_cons, List.mem_cons, not_or] at h
    simp [splitTag, Ne.symm h.1, ih h.2, bind, Except.bind, Pure.pure, Except.pure]

lemma Document.ofTagged_tagged {vs : List (Variant α)} {tag : String}
    {ms : List (String × Document)} {v : Variant α} {P : Prop} {a : α}
    (hk : tagName ∉ ms.map Prod.fst) (hv : vs.find? (fun v => v.tag == tag) = some v)
    (h : Gives (v.ofMembers ms) P a) :
    Gives (ofTagged vs (("kind", .string tag) :: ms)) P a := by
  refine .congr ?_ h
  simp [ofTagged, splitTag, tagName, asTag, Variant.find, hv, splitTag_others vs (some v) hk, bind,
    Except.bind]

lemma TaggedAs.document {vs : List (Variant α)} {d : Document} {P : Prop} {a : α}
    (h : TaggedAs vs d P a) (owner : String) : ReadsAs Eq (Document.asTagged owner vs) d P a := by
  rintro _ rfl
  obtain ⟨tag, ms, v, rfl, hk, hv, h⟩ := h
  exact Document.ofTagged_tagged hk hv h

lemma Draft.splitTag_others (vs : List (Variant α)) (v : Option (Variant α)) {room : ℕ}
    {xs : List (Name × Draft)} {ms : List (String × Document)} (hs : ShowsMembers xs ms)
    (hd : Document.membersDepth ms ≤ room) (hn : tagName ∉ ms.map Prod.fst) :
    splitTag room vs v xs = .ok (v, ms) := by
  induction ms generalizing xs with
  | nil => cases hs; rfl
  | cons m ms ih =>
    obtain _ | ⟨hk, h, hs⟩ := hs
    simp only [Document.membersDepth, max_le_iff] at hd
    simp only [List.map_cons, List.mem_cons, not_or] at hn
    simp [splitTag, hk, Ne.symm hn.1, complete_shows h hd.1, ih hs hd.2 hn.2, Decoded.ofFault, bind,
      Except.bind, Pure.pure, Except.pure]

lemma TaggedAs.draft {vs : List (Variant α)} {d : Document} {P : Prop} {a : α} {room : ℕ}
    (h : TaggedAs vs d P a) (owner : String) :
    ReadsAs (Fits room) (Draft.asTagged room owner vs) d P a := by
  obtain ⟨tag, ms, v, rfl, hk, hv, h⟩ := h
  intro x hx
  obtain ⟨room, after, xs, rfl, rfl, hs, hd⟩ := hx.object
  obtain _ | ⟨hname, hx, hs⟩ := hs
  cases hx
  simp only [Document.membersDepth, max_le_iff] at hd
  refine .congr ?_ h
  simp [Draft.asTagged, Draft.enter, Draft.splitTag, hname, tagName, Draft.asTag, Variant.find, hv,
    Draft.splitTag_others vs (some v) hs hd.2 hk, Decoded.ofFault, Draft.stop, bind, Except.bind]

end PacketSections.Json
