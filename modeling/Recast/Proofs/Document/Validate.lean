import Recast.Proofs.Document.Rebuild

/-!
# Which documents load, and why the others do not

What makes a document valid, and which of its mistakes is reported, is said here about the document
alone: its outlines, its pairs and its edits, each read from the left.

* `TreeDocument.Valid`, `Document.Valid`: nothing is wrong;
* `TreeDocument.Misplaced`, `Document.PairError`: what can be wrong with one span and with one pair;
* `TreeDocument.FirstError`, `Document.FirstError`: the first thing that is wrong;
* `load_document`: **a document loads exactly when it is valid, and otherwise the error is the first
  thing that is wrong.**
-/

namespace Recast

open Outline (Place)

/-! ## 1. Trees -/

namespace TreeDocument

/-- Every span ends at an offset, within the text, and lies inside the span of its parent. -/
structure Valid (d : TreeDocument) : Prop where
  offsets : ∀ x ∈ d.root.nodes, x.pos + x.length ≤ Text.maxOffset
  inText : ∀ x ∈ d.root.nodes, x.span.stop ≤ Text.length d.text
  inParent : ∀ x ∈ d.root.nodes, ∀ c ∈ x.children, x.span.contains c.span = true

/-- What is wrong with the span at a place. The text is looked at first. -/
inductive Misplaced (d : TreeDocument) (x : Place) : TreeError → Prop where
  | outsideText (h : Text.length d.text < x.node.span.stop) :
    d.Misplaced x (.outsideText x.number x.node.span (Text.length d.text))
  | outsideParent {y : Place} (htext : x.node.span.stop ≤ Text.length d.text) (hy : y ∈ d.places)
    (hx : x ∈ y.below) (h : y.node.span.contains x.node.span = false) :
    d.Misplaced x (.outsideParent y.number y.node.span x.number x.node.span)

/-- The first thing that is wrong with a tree: the first node whose end is no offset, and only if
    there is none, the misplaced node with the lowest number. -/
inductive FirstError (d : TreeDocument) : TreeError → Prop where
  | overflow {done todo : List Outline} {x : Outline} (hnodes : d.root.nodes = done ++ x :: todo)
    (hdone : ∀ y ∈ done, y.pos + y.length ≤ Text.maxOffset)
    (hx : Text.maxOffset < x.pos + x.length) : d.FirstError (.spanOverflow x.pos x.length)
  | misplaced {done todo : List Place} {x : Place} {e : TreeError}
    (hfit : ∀ y ∈ d.root.nodes, y.pos + y.length ≤ Text.maxOffset)
    (hplaces : d.places = done ++ x :: todo) (hdone : ∀ y ∈ done, ∀ e', ¬ d.Misplaced y e')
    (hx : d.Misplaced x e) : d.FirstError e

theorem mem_nodes {d : TreeDocument} {o : Outline} :
    o ∈ d.root.nodes ↔ ∃ x ∈ d.places, x.node = o := by
  rw [← Outline.map_node_places none 0 d.root, List.mem_map]
  rfl

/-- A tree is valid when every end is an offset and no node is misplaced. -/
theorem valid_iff {d : TreeDocument} :
    d.Valid ↔ (∀ x ∈ d.root.nodes, x.pos + x.length ≤ Text.maxOffset) ∧
      ∀ x ∈ d.places, ∀ e, ¬ d.Misplaced x e := by
  constructor
  · intro h
    refine ⟨h.offsets, fun x hx e hmis => ?_⟩
    cases hmis with
    | outsideText hlt => exact Nat.not_lt.2 (h.inText x.node (mem_nodes.2 ⟨x, hx, rfl⟩)) hlt
    | @outsideParent y _ hy hbelow hescapes =>
      have hchild : x.node ∈ y.node.children := Place.mem_children_iff.2 ⟨x, hbelow, rfl⟩
      have hinside := h.inParent y.node (mem_nodes.2 ⟨y, hy, rfl⟩) x.node hchild
      rw [hescapes] at hinside
      cases hinside
  · rintro ⟨hoffsets, hplaced⟩
    have htext : ∀ x ∈ d.places, x.node.span.stop ≤ Text.length d.text := fun x hx =>
      Nat.le_of_not_lt fun hlt => hplaced x hx _ (.outsideText hlt)
    refine ⟨hoffsets, fun o ho => ?_, fun o ho c hc => ?_⟩
    · obtain ⟨x, hx, rfl⟩ := mem_nodes.1 ho
      exact htext x hx
    · obtain ⟨y, hy, rfl⟩ := mem_nodes.1 ho
      obtain ⟨x, hbelow, rfl⟩ := Place.mem_children_iff.1 hc
      have hx : x ∈ d.places := Outline.mem_places_of_below none 0 d.root hy hbelow
      refine Bool.eq_true_of_not_eq_false fun hescapes => ?_
      exact hplaced x hx _ (.outsideParent (htext x hx) hy hbelow hescapes)

/-- A tree is valid, or there is a first thing that is wrong with it. -/
theorem valid_or_firstError (d : TreeDocument) : d.Valid ∨ ∃ e, d.FirstError e := by
  rcases forall_or_first (fun x : Outline => x.pos + x.length ≤ Text.maxOffset) d.root.nodes with
    hfit | ⟨done, x, todo, hnodes, hdone, hx⟩
  · rcases forall_or_first (fun x => ∀ e, ¬ d.Misplaced x e) d.places with
      hplaced | ⟨done, x, todo, hplaces, hdone, hx⟩
    · exact .inl (valid_iff.2 ⟨hfit, hplaced⟩)
    · obtain ⟨e, he⟩ := not_forall_not.1 hx
      exact .inr ⟨e, .misplaced hfit hplaces hdone he⟩
  · exact .inr ⟨_, .overflow hnodes hdone (Nat.lt_of_not_le hx)⟩

end TreeDocument

/-! ### The spans of an arena -/

namespace TreeDocument

variable {d : TreeDocument} {x y : Place} {e : TreeError}

theorem not_misplaced_root (htext : d.root.span.stop ≤ Text.length d.text) :
    ¬ d.Misplaced ⟨0, d.root, none⟩ e := by
  intro h
  cases h with
  | outsideText hlt => exact Nat.not_lt.2 htext hlt
  | outsideParent _ _ hbelow => exact absurd (Outline.parent_of_mem_heads hbelow) nofun

/-- A node within the text is misplaced when it leaves its parent, of which there is one. -/
theorem misplaced_iff_of_below (htext : x.node.span.stop ≤ Text.length d.text) (hy : y ∈ d.places)
    (hbelow : x ∈ y.below) :
    d.Misplaced x e ↔ y.node.span.contains x.node.span = false ∧
      e = .outsideParent y.number y.node.span x.number x.node.span := by
  constructor
  · intro h
    cases h with
    | outsideText hlt => exact absurd hlt (Nat.not_lt.2 htext)
    | @outsideParent z _ hz hbelow' hescapes =>
      have hparent := (Outline.parent_of_mem_heads hbelow').symm.trans
        (Outline.parent_of_mem_heads hbelow)
      rw [Outline.eq_of_number_eq hz hy (Option.some.inj hparent)] at hescapes ⊢
      exact ⟨hescapes, rfl⟩
  · rintro ⟨hescapes, rfl⟩
    exact .outsideParent htext hy hbelow hescapes

end TreeDocument

namespace Arena

variable {a : Arena} {d : TreeDocument}

/-- The check of a node reads no more of it than its entry. -/
def entryError? (a : Arena) (i : Nat) (x : Entry) : Option TreeError :=
  a.spanError? (Text.length a.text) i ⟨x.kind, x.label, x.span, x.parent, #[]⟩

/-- The check of a node finds what is wrong with the span at its place. -/
theorem entryError?_eq_some_iff (ha : a.LaidOut d) {x : Place} (hx : x ∈ d.places)
    {e : TreeError} : a.entryError? x.number x.entry = some e ↔ d.Misplaced x e := by
  unfold entryError? spanError?
  rw [ha.text]
  show (if Text.length d.text < x.node.span.stop then _ else _) = some e ↔ _
  by_cases hlt : Text.length d.text < x.node.span.stop
  · rw [if_pos hlt]
    constructor
    · intro h
      cases h
      exact .outsideText hlt
    · intro h
      cases h with
      | outsideText => rfl
      | outsideParent hle => exact absurd hlt (Nat.not_lt.2 hle)
  · rw [if_neg hlt]
    have hle := Nat.le_of_not_lt hlt
    rcases Outline.eq_or_below_of_mem_places none 0 d.root hx with rfl | ⟨y, hy, hbelow⟩
    · constructor
      · intro h
        cases h
      · intro h
        exact absurd h (TreeDocument.not_misplaced_root hle)
    · obtain ⟨m, hm, hentry⟩ := ha.exists_node hy
      have hspan : m.span = y.node.span := congrArg Arena.Entry.span hentry
      rw [TreeDocument.misplaced_iff_of_below hle hy hbelow]
      simp only [Place.entry, Outline.parent_of_mem_heads hbelow, hm, hspan]
      cases y.node.span.contains x.node.span with
      | true =>
        constructor
        · intro h
          cases h
        · rintro ⟨h, -⟩
          cases h
      | false =>
        constructor
        · intro h
          cases h
          exact ⟨rfl, rfl⟩
        · rintro ⟨-, rfl⟩
          rfl

/-- Checking an arena that is laid out is checking its places in order. -/
theorem violation?_eq (ha : a.LaidOut d) :
    a.violation? = d.places.findSome? fun x => a.entryError? x.number x.entry := by
  have hnodes : a.nodes.toList.zipIdx.map (fun p => (p.1.entry, p.2)) =
      d.places.map fun x => (x.entry, x.number) := by
    have hnumbers : d.places.map (·.number) = List.range' 0 (d.places.map Place.entry).length := by
      rw [TreeDocument.places, Outline.map_number_places, List.length_map, Outline.length_places]
    have hzip : (d.places.map fun x => (x.entry, x.number)) =
        (d.places.map Place.entry).zipIdx := by
      rw [List.zipIdx_eq_zip_range', ← hnumbers, List.zip_map']
    rw [hzip, ← ha.entries, entries, List.zipIdx_map]
    rfl
  have hmap : ∀ (f : Entry × Nat → Option TreeError),
      a.nodes.toList.zipIdx.findSome? (fun p => f (p.1.entry, p.2)) =
        d.places.findSome? fun x => f (x.entry, x.number) := by
    intro f
    have h := congrArg (List.findSome? f) hnodes
    rwa [List.findSome?_map, List.findSome?_map] at h
  exact hmap fun p => a.entryError? p.2 p.1

end Arena

namespace TreeDocument

variable {d : TreeDocument}

theorem overflows_eq_false {x : Outline} :
    x.overflows = false ↔ x.pos + x.length ≤ Text.maxOffset := by
  rw [Outline.overflows, decide_eq_false_iff_not, Nat.not_lt]

/-- A valid tree loads. -/
theorem exists_load_of_valid (h : d.Valid) : ∃ t, d.load = .ok t := by
  obtain ⟨hoffsets, hplaced⟩ := valid_iff.1 h
  obtain ⟨a, ha, hload⟩ := load_eq_finish fun x hx => overflows_eq_false.2 (hoffsets x hx)
  have hnone : a.violation? = none := by
    rw [Arena.violation?_eq ha, List.findSome?_eq_none_iff]
    intro x hx
    refine Option.eq_none_iff_forall_ne_some.2 fun e he => ?_
    exact hplaced x hx e ((Arena.entryError?_eq_some_iff ha hx).1 he)
  obtain ⟨t, hfinish, -⟩ := Arena.exists_finish hnone
  exact ⟨t, hload.trans hfinish⟩

/-- The first thing that is wrong with a tree is the error. -/
theorem load_of_firstError {e : TreeError} (h : d.FirstError e) : d.load = .error e := by
  cases h with
  | @overflow done todo x hnodes hdone hx =>
    refine load_eq_overflow (List.find?_eq_some_iff_append.2 ?_)
    refine ⟨decide_eq_true hx, done, todo, hnodes, fun y hy => ?_⟩
    rw [overflows_eq_false.2 (hdone y hy)]
    rfl
  | @misplaced done todo x _ hfit hplaces hdone hx =>
    obtain ⟨a, ha, hload⟩ := load_eq_finish fun x hx => overflows_eq_false.2 (hfit x hx)
    have hmem : ∀ y, y ∈ done ∨ y = x → y ∈ d.places := by
      intro y hy
      rw [hplaces, List.mem_append, List.mem_cons]
      exact hy.imp id .inl
    have hsome : a.violation? = some e := by
      rw [Arena.violation?_eq ha, List.findSome?_eq_some_iff]
      refine ⟨done, x, todo, hplaces, ?_, fun y hy => ?_⟩
      · exact (Arena.entryError?_eq_some_iff ha (hmem x (.inr rfl))).2 hx
      · refine Option.eq_none_iff_forall_ne_some.2 fun e' he' => ?_
        exact hdone y hy e' ((Arena.entryError?_eq_some_iff ha (hmem y (.inl hy))).1 he')
    rw [hload, Arena.finish_eq_error hsome]

theorem not_firstError_unknownNode (n : Nat) : ¬ d.FirstError (.unknownNode n) := by
  intro h
  cases h with
  | misplaced _ _ _ hx => cases hx

end TreeDocument

/-! ## 2. Pairs and edits -/

namespace Document

/-- Pairs fit trees of these sizes: each names two nodes, and no node is named twice. -/
structure PairsFit (before after : Nat) (ps : List (Nat × Nat)) : Prop where
  inRange : ∀ p ∈ ps, p.1 < before ∧ p.2 < after
  sources : ps.Pairwise fun p q => p.1 ≠ q.1
  destinations : ps.Pairwise fun p q => p.2 ≠ q.2

/-- What is wrong with a pair that comes after others, in the order in which it is looked at. -/
inductive PairError (before after : Nat) (done : List (Nat × Nat)) (p : Nat × Nat) :
    DocumentError → Prop where
  | noSource (h : before ≤ p.1) : PairError before after done p (.danglingNode .source p.1)
  | noDestination (hs : p.1 < before) (h : after ≤ p.2) :
    PairError before after done p (.danglingNode .destination p.2)
  | sourceMapped (hs : p.1 < before) (hd : p.2 < after) (h : ∃ q ∈ done, q.1 = p.1) :
    PairError before after done p (.mapping (.sourceMapped p.1))
  | destinationMapped (hs : p.1 < before) (hd : p.2 < after) (hfree : ∀ q ∈ done, q.1 ≠ p.1)
    (h : ∃ q ∈ done, q.2 = p.2) :
    PairError before after done p (.mapping (.destinationMapped p.2))

/-- An edit names a node of a document: an insertion of the later tree, any other of the earlier. -/
def Names (doc : Document) (e : Edit) : Prop :=
  if e.isInsert then e.node < doc.after.root.size else e.node < doc.before.root.size

/-- Nothing is wrong with a document. -/
structure Valid (doc : Document) : Prop where
  before : doc.before.Valid
  after : doc.after.Valid
  mapping : PairsFit doc.before.root.size doc.after.root.size doc.mapping
  script : ∀ e ∈ doc.script, doc.Names e

/-- The first thing that is wrong with a document: the earlier tree comes before the later, that
    before the pairs in order, and those before the edits in order. -/
inductive FirstError (doc : Document) : DocumentError → Prop where
  | before {e : TreeError} (h : doc.before.FirstError e) : doc.FirstError (.tree e)
  | after {e : TreeError} (hb : doc.before.Valid) (h : doc.after.FirstError e) :
    doc.FirstError (.tree e)
  | pair {done todo : List (Nat × Nat)} {p : Nat × Nat} {e : DocumentError}
    (hb : doc.before.Valid) (ha : doc.after.Valid) (hmapping : doc.mapping = done ++ p :: todo)
    (hdone : PairsFit doc.before.root.size doc.after.root.size done)
    (hp : PairError doc.before.root.size doc.after.root.size done p e) : doc.FirstError e
  | edit {done todo : List Edit} {x : Edit} (hb : doc.before.Valid) (ha : doc.after.Valid)
    (hm : PairsFit doc.before.root.size doc.after.root.size doc.mapping)
    (hscript : doc.script = done ++ x :: todo) (hdone : ∀ y ∈ done, doc.Names y)
    (hx : ¬ doc.Names x) :
    doc.FirstError (.danglingNode (if x.isInsert then .destination else .source) x.node)

/-- Pairs that fit go on fitting, or something is wrong with the next. -/
theorem PairsFit.exists_error {before after : Nat} {done : List (Nat × Nat)} {p : Nat × Nat}
    (hdone : PairsFit before after done) (h : ¬ PairsFit before after (done ++ [p])) :
    ∃ e, PairError before after done p e := by
  by_cases hs : p.1 < before
  · by_cases hd : p.2 < after
    · by_cases hsource : ∃ q ∈ done, q.1 = p.1
      · exact ⟨_, .sourceMapped hs hd hsource⟩
      · have hfree : ∀ q ∈ done, q.1 ≠ p.1 := fun q hq he => hsource ⟨q, hq, he⟩
        by_cases hdestination : ∃ q ∈ done, q.2 = p.2
        · exact ⟨_, .destinationMapped hs hd hfree hdestination⟩
        · refine absurd ⟨?_, ?_, ?_⟩ h
          · rw [List.forall_mem_append, List.forall_mem_singleton]
            exact ⟨hdone.inRange, hs, hd⟩
          · rw [List.pairwise_append]
            refine ⟨hdone.sources, List.pairwise_singleton _ _, fun q hq r hr => ?_⟩
            rw [List.mem_singleton.1 hr]
            exact hfree q hq
          · rw [List.pairwise_append]
            refine ⟨hdone.destinations, List.pairwise_singleton _ _, fun q hq r hr he => ?_⟩
            rw [List.mem_singleton.1 hr] at he
            exact hdestination ⟨q, hq, he⟩
    · exact ⟨_, .noDestination hs (Nat.le_of_not_lt hd)⟩
  · exact ⟨_, .noSource (Nat.le_of_not_lt hs)⟩

/-- **A document is valid, or there is a first thing that is wrong with it.** -/
theorem valid_or_firstError (doc : Document) : doc.Valid ∨ ∃ e, doc.FirstError e := by
  rcases doc.before.valid_or_firstError with hb | ⟨e, he⟩
  · rcases doc.after.valid_or_firstError with ha | ⟨e, he⟩
    · have hnil : PairsFit doc.before.root.size doc.after.root.size [] :=
        ⟨fun p hp => absurd hp List.not_mem_nil, .nil, .nil⟩
      rcases fits_or_first _ hnil doc.mapping with hm | ⟨done, p, todo, hmapping, hdone, hp⟩
      · rcases forall_or_first doc.Names doc.script with hs | ⟨done, x, todo, hscript, hdone, hx⟩
        · exact .inl ⟨hb, ha, hm, hs⟩
        · exact .inr ⟨_, .edit hb ha hm hscript hdone hx⟩
      · obtain ⟨e, he⟩ := hdone.exists_error hp
        exact .inr ⟨e, .pair hb ha hmapping hdone he⟩
    · exact .inr ⟨_, .after hb he⟩
  · exact .inr ⟨_, .before he⟩

/-! ## 3. Loading -/

theorem checkNode_eq_error {t : Tree} {i : Nat} (h : t.nodes.size ≤ i) (side : Side) :
    checkNode t side i = .error (.danglingNode side i) :=
  if_neg (Nat.not_lt.2 h)

theorem loadPairs_append (before after : Tree) (m : Correspondence) (ps qs : List (Nat × Nat)) :
    loadPairs before after m (ps ++ qs) =
      loadPairs before after m ps >>= fun m' => loadPairs before after m' qs := by
  induction ps generalizing m with
  | nil => rfl
  | cons p ps ih =>
    obtain ⟨s, d⟩ := p
    rw [List.cons_append, loadPairs, loadPairs]
    cases checkNode before .source s with
    | error e => rfl
    | ok u =>
      cases checkNode after .destination d with
      | error e => rfl
      | ok u =>
        cases hm : m.insert s d with
        | error e => simp only [Except.bind, bind]
        | ok m₁ => simpa only [Except.bind, bind, hm] using ih m₁

theorem checkScript_append (before after : Tree) (xs ys : List Edit) :
    checkScript before after (xs ++ ys) =
      checkScript before after xs >>= fun _ => checkScript before after ys := by
  induction xs with
  | nil => rfl
  | cons x xs ih =>
    rw [List.cons_append, checkScript, checkScript, ih]
    cases x.isInsert with
    | true => cases checkNode after .destination x.node <;> rfl
    | false => cases checkNode before .source x.node <;> rfl

/-- **One step**: what is wrong with a pair is the error. -/
theorem loadPairs_of_pairError {before after : Tree} {m : Correspondence}
    {done : List (Nat × Nat)} (hm : m.pairs.Perm done) {p : Nat × Nat} {e : DocumentError}
    (h : PairError before.nodes.size after.nodes.size done p e) (ps : List (Nat × Nat)) :
    loadPairs before after m (p :: ps) = .error e := by
  obtain ⟨s, d⟩ := p
  rw [loadPairs]
  cases h with
  | noSource hs =>
    rw [checkNode_eq_error hs]
    rfl
  | noDestination hs hd =>
    rw [checkNode_eq_ok (u := ()) |>.2 hs, checkNode_eq_error hd]
    rfl
  | sourceMapped hs hd hq =>
    obtain ⟨q, hq, he⟩ := hq
    rw [checkNode_eq_ok (u := ()) |>.2 hs, checkNode_eq_ok (u := ()) |>.2 hd,
      Correspondence.insert_of_source_mapped ⟨q, hm.symm.subset hq, he⟩]
    rfl
  | destinationMapped hs hd hfree hq =>
    obtain ⟨q, hq, he⟩ := hq
    have hfree' : ∀ q ∈ m.pairs, q.1 ≠ s := fun q hq => hfree q (hm.subset hq)
    rw [checkNode_eq_ok (u := ()) |>.2 hs, checkNode_eq_ok (u := ()) |>.2 hd,
      Correspondence.insert_of_destination_mapped hfree' ⟨q, hm.symm.subset hq, he⟩]
    rfl

/-- **One step**: an edit that names no node is the error. -/
theorem checkScript_of_not_names {before after : Tree} {x : Edit} (h : ¬ x.Names before after)
    (xs : List Edit) : checkScript before after (x :: xs) =
      .error (.danglingNode (if x.isInsert then .destination else .source) x.node) := by
  rw [checkScript]
  unfold Edit.Names at h
  cases hinsert : x.isInsert with
  | true =>
    rw [hinsert, if_pos rfl] at h
    rw [if_pos rfl, checkNode_eq_error (Nat.le_of_not_lt h)]
    rfl
  | false =>
    rw [hinsert, if_neg Bool.false_ne_true] at h
    rw [if_neg Bool.false_ne_true, checkNode_eq_error (Nat.le_of_not_lt h)]
    rfl

theorem load_of_trees {doc : Document} {before after : Tree} (hb : doc.before.load = .ok before)
    (ha : doc.after.load = .ok after) :
    doc.load = loadPairs before after .empty doc.mapping >>= fun mapping =>
      checkScript before after doc.script >>= fun _ =>
        .ok { before, after, mapping, script := doc.script } := by
  unfold load
  rw [hb, ha]
  rfl

/-- Valid trees load, with as many nodes as their outlines. -/
theorem exists_trees {doc : Document} (hb : doc.before.Valid) (ha : doc.after.Valid) :
    ∃ before after, doc.before.load = .ok before ∧ doc.after.load = .ok after ∧
      before.nodes.size = doc.before.root.size ∧ after.nodes.size = doc.after.root.size := by
  obtain ⟨before, hbefore⟩ := TreeDocument.exists_load_of_valid hb
  obtain ⟨after, hafter⟩ := TreeDocument.exists_load_of_valid ha
  exact ⟨before, after, hbefore, hafter, (TreeDocument.laidOut_of_load hbefore).2.size,
    (TreeDocument.laidOut_of_load hafter).2.size⟩

theorem names_iff {doc : Document} {before after : Tree}
    (hb : before.nodes.size = doc.before.root.size) (ha : after.nodes.size = doc.after.root.size)
    (e : Edit) : e.Names before after ↔ doc.Names e := by
  unfold Edit.Names Names
  rw [hb, ha]

theorem PairsFit.exists_loadPairs {before after : Tree} {ps : List (Nat × Nat)}
    (h : PairsFit before.nodes.size after.nodes.size ps) :
    ∃ m, loadPairs before after .empty ps = .ok m ∧ m.pairs.Perm ps :=
  exists_loadPairs_empty h.inRange h.sources h.destinations

/-- A valid document loads. -/
theorem exists_load_of_valid {doc : Document} (h : doc.Valid) : ∃ d, doc.load = .ok d := by
  obtain ⟨before, after, hb, ha, hsizeB, hsizeA⟩ := exists_trees h.before h.after
  have hfit := h.mapping
  rw [← hsizeB, ← hsizeA] at hfit
  obtain ⟨m, hm, -⟩ := hfit.exists_loadPairs
  have hs : checkScript before after doc.script = .ok () :=
    checkScript_eq_ok.2 fun e he => (names_iff hsizeB hsizeA e).2 (h.script e he)
  rw [load_of_trees hb ha, hm]
  exact ⟨_, bind_eq_ok.2 ⟨m, rfl, bind_eq_ok.2 ⟨(), hs, rfl⟩⟩⟩

/-- The first thing that is wrong with a document is the error. -/
theorem load_of_firstError {doc : Document} {e : DocumentError} (h : doc.FirstError e) :
    doc.load = .error e := by
  cases h with
  | before hb =>
    unfold load
    rw [TreeDocument.load_of_firstError hb]
    rfl
  | after hb ha =>
    obtain ⟨before, hbefore⟩ := TreeDocument.exists_load_of_valid hb
    unfold load
    rw [hbefore, TreeDocument.load_of_firstError ha]
    rfl
  | @pair done todo p _ hb ha hmapping hdone hp =>
    obtain ⟨before, after, hbefore, hafter, hsizeB, hsizeA⟩ := exists_trees hb ha
    rw [← hsizeB, ← hsizeA] at hdone hp
    obtain ⟨m, hm, hperm⟩ := hdone.exists_loadPairs
    rw [load_of_trees hbefore hafter, hmapping, loadPairs_append, hm]
    show (loadPairs before after m (p :: todo) >>= _) = _
    rw [loadPairs_of_pairError hperm hp]
    rfl
  | @edit done todo x hb ha hfit hscript hdone hx =>
    obtain ⟨before, after, hbefore, hafter, hsizeB, hsizeA⟩ := exists_trees hb ha
    rw [← hsizeB, ← hsizeA] at hfit
    obtain ⟨m, hm, -⟩ := hfit.exists_loadPairs
    have hs : checkScript before after done = .ok () :=
      checkScript_eq_ok.2 fun e he => (names_iff hsizeB hsizeA e).2 (hdone e he)
    have hx' : ¬ x.Names before after := fun h => hx ((names_iff hsizeB hsizeA x).1 h)
    rw [load_of_trees hbefore hafter, hm, hscript, checkScript_append, hs]
    show (checkScript before after (x :: todo) >>= _) = _
    rw [checkScript_of_not_names hx']
    rfl

theorem not_firstError_unknownNode {doc : Document} (n : Nat) :
    ¬ doc.FirstError (.tree (.unknownNode n)) := by
  intro h
  cases h with
  | before h => exact TreeDocument.not_firstError_unknownNode n h
  | after _ h => exact TreeDocument.not_firstError_unknownNode n h
  | pair _ _ _ _ hp => cases hp

end Document

/-- **A document loads exactly when it is valid, and otherwise the error is the first thing that is
    wrong with it.** That a node is put under a parent that is not there never happens. -/
theorem load_document (doc : Document) :
    ((∃ d, doc.load = .ok d) ↔ doc.Valid) ∧ (∀ e, doc.load = .error e ↔ doc.FirstError e) ∧
      ∀ n, doc.load ≠ .error (.tree (.unknownNode n)) := by
  obtain ⟨hvalid, herror⟩ := settled Document.exists_load_of_valid
    (fun _ => Document.load_of_firstError) doc.valid_or_firstError
  refine ⟨hvalid, herror, fun n hn => ?_⟩
  exact Document.not_firstError_unknownNode n ((herror _).1 hn)

end Recast
