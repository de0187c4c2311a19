import Recast.Proofs.Sketch.Pieces
import Recast.Proofs.Text.Cut
import Recast.Proofs.Text.Search
import Recast.Proofs.Tree.Building

/-!
# Sketches are well formed

A sketch finds the place of a node by searching for its text, from the end of the child that was
added before, up to the end of the parent. Whatever is drawn, and below whatever nodes in turn, the
spans that come out of this are nested and in order.

* `Covers`: a span that cuts a given run out of a text;
* `Sketch.Sound`: what holds of a sketch in which certain nodes have been asked for;
* `Sketch.Sound.add`: **one more node keeps it sound**, and so does a piece: `Sketch.Sound.addPiece`;
* `Tree.DrawnAs`: what a finished sketch is;
* `sketch_wellFormed`: **a series of operations that succeeds makes a tree, whose nodes cover the
  snippets they were added with, and whose children are inside their parents and in order.**
-/

namespace Recast

/-! ## 1. Places of snippets -/

/-- The span cuts `snippet` out of the text. -/
def Covers (text : String) (span : Span) (snippet : List Char) : Prop :=
  ∃ before after, text.toList = before ++ (snippet ++ after) ∧ span.start = Text.bytes before ∧
    span.stop = span.start + Text.bytes snippet

theorem slice?_eq_some_iff {text body : String} {span : Span} :
    Text.slice? text span.start span.stop = some body ↔ Covers text span body.toList := by
  unfold Text.slice?
  rw [if_pos span.start_le_stop]
  constructor
  · intro h
    obtain ⟨⟨before, rest⟩, hfirst, h⟩ := Option.bind_eq_some_iff.1 h
    obtain ⟨⟨inner, after⟩, hsecond, h⟩ := Option.bind_eq_some_iff.1 h
    obtain ⟨htext, hstart⟩ := Text.cutAt?_eq_some hfirst
    obtain ⟨hrest, hlength⟩ := Text.cutAt?_eq_some hsecond
    cases h
    have hle := span.start_le_stop
    refine ⟨before, after, ?_, hstart.symm, ?_⟩
    · rw [String.toList_ofList, htext, hrest]
    · rw [String.toList_ofList, hlength]
      omega
  · rintro ⟨before, after, htext, hstart, hstop⟩
    have hfirst : Text.cutAt? span.start text.toList = some (before, body.toList ++ after) := by
      rw [htext, hstart, Text.cutAt?_bytes]
    have hlength : span.stop - span.start = Text.bytes body.toList := by omega
    have hsecond : Text.cutAt? (span.stop - span.start) (body.toList ++ after) =
        some (body.toList, after) := by
      rw [hlength, Text.cutAt?_bytes]
    show (Text.cutAt? span.start text.toList).bind _ = _
    rw [hfirst]
    show (Text.cutAt? (span.stop - span.start) (body.toList ++ after)).bind _ = _
    rw [hsecond]
    show some (String.ofList body.toList) = _
    rw [String.ofList_toList]

theorem Covers.stop_le {text : String} {span : Span} {snippet : List Char}
    (h : Covers text span snippet) : span.stop ≤ Text.length text := by
  obtain ⟨before, after, htext, hstart, hstop⟩ := h
  rw [Text.length, htext, Text.bytes_append, Text.bytes_append]
  omega

/-! ## 2. Sound sketches -/

/-- What a node was added as, judged by what is recorded of it; `none` when its span cuts through a
    character. -/
def Arena.Entry.request? (text : String) (e : Arena.Entry) : Option Request :=
  (Text.slice? text e.span.start e.span.stop).map fun body => ⟨e.kind, e.label, body.toList⟩

theorem Arena.Entry.request?_eq {text : String} {r : Request} {span : Span} {parent : Option Nat}
    (h : Covers text span r.snippet) :
    Arena.Entry.request? text ⟨r.kind, r.label, span, parent⟩ = some r := by
  have hslice : Text.slice? text span.start span.stop = some (String.ofList r.snippet) := by
    rw [slice?_eq_some_iff, String.toList_ofList]
    exact h
  rw [Arena.Entry.request?, hslice, Option.map_some, String.toList_ofList]

namespace Sketch

/-- Where the next child of a node is searched for: inside the node, and after all its children. -/
structure ReadyAt (entries : List Arena.Entry) (p : Nat) (span : Span) (start : Nat) : Prop where
  start_le : span.start ≤ start
  le_stop : start ≤ span.stop
  after : ∀ e ∈ entries, e.parent = some p → e.span.stop ≤ start

theorem ReadyAt.append {entries : List Arena.Entry} {p start : Nat} {span : Span} {e : Arena.Entry}
    (h : ReadyAt entries p span start) (he : e.parent = some p → e.span.stop ≤ start) :
    ReadyAt (entries ++ [e]) p span start where
  start_le := h.start_le
  le_stop := h.le_stop
  after := by
    rw [List.forall_mem_append, List.forall_mem_singleton]
    exact ⟨h.after, he⟩

/-- **What holds of a sketch** over a text in which certain nodes have been asked for. -/
structure Sound (text : String) (asked : List Request) (s : Sketch) : Prop where
  text_eq : s.arena.text = text
  /-- Each node is what was asked for, and covers the snippet it was asked for with. -/
  answers : s.arena.entries.map (Arena.Entry.request? text) = asked.map some
  /-- The spans that are kept beside the arena are those of its nodes. -/
  spans : s.spans.toList = s.arena.entries.map Arena.Entry.span
  /-- A node is inside its parent. -/
  inside : ∀ e ∈ s.arena.entries, ∀ p, e.parent = some p →
    ∃ q, s.arena.entries[p]? = some q ∧ q.span.contains e.span = true
  /-- Children of one node do not overlap. -/
  ordered : s.arena.entries.Pairwise fun d e => d.parent = e.parent → d.span.stop ≤ e.span.start
  ready : ∀ p q, s.arena.entries[p]? = some q →
    ReadyAt s.arena.entries p q.span (s.searchStart p q.span)
  /-- Nothing is known of nodes that are not there yet. -/
  known : ∀ e ∈ s.ends, e.1 < s.arena.entries.length

theorem searchStart_cons {s : Sketch} {arena : Arena} {spans : Array Span} {i stop p : Nat}
    {span : Span} :
    searchStart ⟨arena, spans, (i, stop) :: s.ends⟩ p span =
      if i = p then stop else s.searchStart p span := by
  unfold searchStart
  by_cases h : i = p
  · rw [if_pos h, List.find?_cons_of_pos (by rw [h]; exact beq_self_eq_true p)]
    rfl
  · rw [if_neg h, List.find?_cons_of_neg (by simpa using h)]

/-- Before a node has children, its first child is searched for from its own start on. -/
theorem searchStart_of_forall {s : Sketch} {p : Nat} {span : Span} (h : ∀ e ∈ s.ends, e.1 ≠ p) :
    s.searchStart p span = span.start := by
  have hnone : s.ends.find? (fun e => e.1 == p) = none := by
    rw [List.find?_eq_none]
    intro e he
    simpa using h e he
  rw [searchStart, hnone]
  rfl

namespace Sound

variable {text : String} {asked : List Request} {s s' : Sketch}

/-- A sketch with nothing but its root. -/
theorem ofText (text : String) :
    (Sketch.ofText text).Sound text [⟨.compilationUnit, "", text.toList⟩] where
  text_eq := rfl
  answers := by
    have hcovers : Covers text (.ofLength 0 (Text.length text)) text.toList :=
      ⟨[], [], by rw [List.append_nil, List.nil_append], rfl, rfl⟩
    have hroot : Arena.Entry.request? text
        ⟨.compilationUnit, "", .ofLength 0 (Text.length text), none⟩ =
          some ⟨.compilationUnit, "", text.toList⟩ :=
      Arena.Entry.request?_eq (r := ⟨.compilationUnit, "", text.toList⟩) hcovers
    exact congrArg (fun o => [o]) hroot
  spans := rfl
  inside e he p hp := by
    rw [List.mem_singleton.1 he] at hp
    cases hp
  ordered := List.pairwise_singleton _ _
  ready p q hq := by
    cases p with
    | zero =>
      cases hq
      refine ⟨Nat.le_refl _, Nat.zero_le _, fun e he hp => ?_⟩
      rw [List.mem_singleton.1 he] at hp
      cases hp
    | succ p => cases hq
  known e he := by cases he

/-- **The place of the next child** covers the snippet, starts no earlier than the search, and stays
    inside the parent. -/
theorem covers_of_locate (h : s.Sound text asked) {parent : Nat} {snippet : List Char} {span : Span}
    (hlocate : s.locate parent snippet = .ok span) :
    ∃ q, s.arena.entries[parent]? = some q ∧ Covers text span snippet ∧
      s.searchStart parent q.span ≤ span.start ∧ span.stop ≤ q.span.stop := by
  unfold locate at hlocate
  obtain ⟨pspan, hpspan, hlocate⟩ := bind_eq_ok.1 hlocate
  have hentry : ∃ q, s.arena.entries[parent]? = some q ∧ q.span = pspan := by
    unfold Sketch.span at hpspan
    split at hpspan
    · rename_i found hfound
      cases hpspan
      rw [← Array.getElem?_toList, h.spans, List.getElem?_map] at hfound
      exact Option.map_eq_some_iff.1 hfound
    · cases hpspan
  obtain ⟨q, hq, rfl⟩ := hentry
  have hready := h.ready parent q hq
  refine ⟨q, hq, ?_⟩
  dsimp only at hlocate
  split at hlocate
  · rename_i offset hoffset
    cases hlocate
    obtain ⟨rest, hslice, hfind⟩ := Option.bind_eq_some_iff.1 hoffset
    obtain ⟨left, right, hrest, rfl⟩ := Text.offsetOf?_eq_some hfind
    -- what is left of the parent, as a span
    have hleft : Covers text ⟨s.searchStart parent q.span, q.span.stop, hready.le_stop⟩
        rest.toList := by
      rw [← h.text_eq]
      exact slice?_eq_some_iff.1 hslice
    obtain ⟨before, after, htext, hstart, hstop⟩ := hleft
    rw [hrest] at htext hstop
    replace hstart : s.searchStart parent q.span = Text.bytes before := hstart
    replace hstop : q.span.stop = s.searchStart parent q.span +
      Text.bytes (left ++ (snippet ++ right)) := hstop
    refine ⟨⟨before ++ left, right ++ after, ?_, ?_, rfl⟩, Nat.le_add_right _ _, ?_⟩
    · rw [htext]
      simp only [List.append_assoc]
    · rw [Text.bytes_append, ← hstart]
      rfl
    · rw [hstop, Text.bytes_append, Text.bytes_append]
      show s.searchStart parent q.span + Text.bytes left + Text.bytes snippet ≤ _
      omega
  · cases hlocate

/-- **One more node keeps a sketch sound.** -/
theorem add (h : s.Sound text asked) {parent id : Nat} {r : Request}
    (hadd : s.add parent r.kind r.label r.snippet = .ok (id, s')) :
    s'.Sound text (asked ++ [r]) := by
  unfold Sketch.add at hadd
  obtain ⟨span, hlocate, hadd⟩ := bind_eq_ok.1 hadd
  obtain ⟨q, hq, hcovers, hstart, hstop⟩ := h.covers_of_locate hlocate
  obtain ⟨hparent, hget⟩ := List.getElem?_eq_some_iff.1 hq
  have hnode : parent < s.arena.nodes.size := by rwa [Arena.length_entries] at hparent
  obtain ⟨arena, hpush, htext, hentries⟩ := Arena.push_eq hnode r.kind r.label span
  rw [hpush] at hadd
  cases hadd
  have hready := h.ready parent q hq
  have hends : ∀ e ∈ (parent, span.stop) :: s.ends, e.1 < s.arena.entries.length := by
    rw [List.forall_mem_cons]
    exact ⟨hparent, h.known⟩
  have hspan := span.start_le_stop
  have hkeep : ∀ (p : Nat) (q : Arena.Entry), s.arena.entries[p]? = some q →
      arena.entries[p]? = some q := by
    intro p q hq
    rw [hentries, List.getElem?_append_left (List.getElem?_eq_some_iff.1 hq).1]
    exact hq
  constructor
  case text_eq => exact htext.trans h.text_eq
  case answers =>
    rw [hentries, List.map_append, List.map_append, h.answers, List.map_singleton,
      Arena.Entry.request?_eq hcovers]
    rfl
  case spans =>
    rw [hentries, List.map_append, ← h.spans]
    exact Array.toList_push
  case inside =>
    show ∀ e ∈ arena.entries, ∀ p, e.parent = some p →
      ∃ q, arena.entries[p]? = some q ∧ q.span.contains e.span = true
    intro e he p hp
    rw [hentries, List.mem_append, List.mem_singleton] at he
    rcases he with he | rfl
    · obtain ⟨q', hq', hcontains⟩ := h.inside e he p hp
      exact ⟨q', hkeep p q' hq', hcontains⟩
    · obtain rfl : parent = p := Option.some.inj hp
      refine ⟨q, hkeep parent q hq, Span.contains_iff.2 ⟨?_, hstop⟩⟩
      exact Nat.le_trans hready.start_le hstart
  case ordered =>
    rw [hentries, List.pairwise_append]
    refine ⟨h.ordered, List.pairwise_singleton _ _, fun d hd e he hde => ?_⟩
    obtain rfl := List.mem_singleton.1 he
    exact Nat.le_trans (hready.after d hd hde) hstart
  case ready =>
    rw [hentries]
    intro p q' hq'
    rw [searchStart_cons]
    by_cases hlast : p < s.arena.entries.length
    · rw [List.getElem?_append_left hlast] at hq'
      by_cases hp : parent = p
      · -- the next child of this node comes after the new one
        subst hp
        rw [hq] at hq'
        cases hq'
        rw [if_pos rfl]
        refine ReadyAt.append ⟨?_, hstop, fun e he hp => ?_⟩ fun _ => Nat.le_refl _
        · exact Nat.le_trans hready.start_le (Nat.le_trans hstart hspan)
        · exact Nat.le_trans (hready.after e he hp) (Nat.le_trans hstart hspan)
      · rw [if_neg hp]
        exact (h.ready p q' hq').append fun hnew => absurd (Option.some.inj hnew) hp
    · -- the new node has no children yet
      have hne : parent ≠ p := by omega
      rw [List.getElem?_append_right (Nat.le_of_not_lt hlast), List.getElem?_singleton] at hq'
      obtain ⟨-, hq'⟩ := Option.ite_none_right_eq_some.1 hq'
      obtain rfl := Option.some.inj hq'
      have hfresh : ∀ e ∈ s.ends, e.1 ≠ p := fun e he => by
        have := h.known e he
        omega
      rw [if_neg hne, searchStart_of_forall hfresh]
      refine ReadyAt.append ⟨Nat.le_refl _, hspan, fun e he hp => ?_⟩ fun hnew =>
        absurd (Option.some.inj hnew) hne
      obtain ⟨q', hq', -⟩ := h.inside e he p hp
      exact absurd (List.getElem?_eq_some_iff.1 hq').1 hlast
  case known =>
    rw [hentries]
    intro e he
    rw [List.length_append]
    exact Nat.lt_add_right _ (hends e he)

mutual

/-- **A piece keeps a sketch sound**, by induction on the piece. -/
theorem addPiece : (p : Piece) → {s s' : Sketch} → {parent : Nat} →
    {done : List Request} → s.Sound text done → s.addPiece parent p = .ok s' →
    s'.Sound text (done ++ p.requests)
  | .node r parts, s, s', parent, done, h, hadd => by
    rw [Sketch.addPiece, bind_eq_ok] at hadd
    obtain ⟨⟨id, s₁⟩, hnode, hparts⟩ := hadd
    have hsound := addPieces parts (h.add hnode) hparts
    rwa [List.append_assoc, List.singleton_append, ← Piece.requests] at hsound

theorem addPieces : (ps : List Piece) → {s s' : Sketch} → {parent : Nat} →
    {done : List Request} → s.Sound text done → s.addPieces parent ps = .ok s' →
    s'.Sound text (done ++ Piece.requestsAll ps)
  | [], s, s', parent, done, h, hadd => by
    rw [Sketch.addPieces_nil] at hadd
    cases hadd
    rwa [Piece.requestsAll, List.append_nil]
  | p :: ps, s, s', parent, done, h, hadd => by
    obtain ⟨s₁, hp, hps⟩ := Sketch.addPieces_cons.1 hadd
    have hsound := addPieces ps (addPiece p h hp) hps
    rwa [List.append_assoc, ← Piece.requestsAll] at hsound

end

/-- **So does a series of operations.** -/
theorem runAll (h : s.Sound text asked) {ops : List SketchOp}
    (hrun : ops.foldlM SketchOp.run s = .ok s') :
    ∃ pieces, ops.mapM SketchOp.piece? = some pieces ∧
      s'.Sound text (asked ++ Piece.requestsAll pieces) := by
  induction ops generalizing s asked with
  | nil =>
    cases hrun
    exact ⟨[], rfl, by rwa [Piece.requestsAll, List.append_nil]⟩
  | cons op ops ih =>
    rw [List.foldlM_cons, bind_eq_ok] at hrun
    obtain ⟨s₁, hop, hops⟩ := hrun
    obtain ⟨p, hp, hadd⟩ := SketchOp.run_eq_ok hop
    obtain ⟨pieces, hpieces, hsound⟩ := ih (h.addPiece p hadd) hops
    refine ⟨p :: pieces, by rw [List.mapM_cons, hp, hpieces]; rfl, ?_⟩
    rwa [List.append_assoc, ← Piece.requestsAll] at hsound

/-- The spans of a sound sketch are nested in each other and in the text. -/
theorem nested (h : s.Sound text asked) : s.arena.Nested := by
  have hrecord : ∀ {i : Nat} {n : Node}, s.arena.nodes[i]? = some n →
      s.arena.entries[i]? = some n.entry := by
    intro i n hi
    rw [Arena.getElem?_entries, hi]
    rfl
  intro i n hi
  have hmem : n.entry ∈ s.arena.entries := List.mem_of_getElem? (hrecord hi)
  constructor
  · have hanswer : n.entry.request? text ∈ asked.map some := by
      rw [← h.answers]
      exact List.mem_map_of_mem hmem
    obtain ⟨r, -, hr⟩ := List.mem_map.1 hanswer
    obtain ⟨body, hslice, -⟩ := Option.map_eq_some_iff.1 hr.symm
    rw [h.text_eq]
    exact (slice?_eq_some_iff.1 hslice).stop_le
  · intro p m hp hm
    obtain ⟨q, hq, hcontains⟩ := h.inside n.entry hmem p hp
    rw [hrecord hm] at hq
    cases hq
    exact hcontains

end Sound

end Sketch

/-! ## 3. Finished sketches -/

namespace Tree

/-- What a node of a finished tree was added as: its text is its snippet. -/
def request (t : Tree) (i : t.Id) : Request := ⟨t.kind i, t.label i, (t.sourceText i).toList⟩

/-- **A tree that was drawn** over a text: its nodes are what was asked for, in this order, children
    are inside their parents, and each child starts where the one before it ends, or later. -/
structure DrawnAs (t : Tree) (text : String) (asked : List Request) : Prop where
  text_eq : t.text = text
  requests : t.ids.map t.request = asked
  inside : ∀ i, ∀ c ∈ t.children i, (t.span i).contains (t.span c) = true
  ordered : ∀ i, (t.children i).Pairwise fun c d => (t.span c).stop ≤ (t.span d).start

theorem entries_eq (t : Tree) : t.entries = t.ids.map fun i => (t.node i).entry := by
  refine List.ext_getElem ?_ fun n hn hn' => ?_
  · rw [Arena.length_entries, List.length_map, ids, List.length_finRange]
  · simp [Arena.entries, ids, node]

end Tree

/-- **A sound sketch makes a tree.** -/
theorem Sketch.Sound.exists_tree {text : String} {asked : List Request} {s : Sketch}
    (h : s.Sound text asked) :
    ∃ t, s.finish = .ok t ∧ t.DrawnAs text asked ∧ s.spans.toList = t.ids.map t.span := by
  obtain ⟨t, hfinish⟩ := Arena.exists_finish_iff.2 h.nested
  have harena : t.toArena = s.arena := Arena.toArena_of_finish hfinish
  have hentries : s.arena.entries = t.ids.map fun i => (t.node i).entry := by
    rw [← harena]
    exact t.entries_eq
  have htext : t.text = text := by
    rw [← h.text_eq, ← harena]
  have hrequest (i : t.Id) : (t.node i).entry.request? text = some (t.request i) := by
    have hanswer : (t.node i).entry.request? text ∈ asked.map some := by
      rw [← h.answers, hentries]
      exact List.mem_map_of_mem (List.mem_map_of_mem (t.mem_ids i))
    obtain ⟨r, -, hr⟩ := List.mem_map.1 hanswer
    obtain ⟨body, hslice, rfl⟩ := Option.map_eq_some_iff.1 hr.symm
    have hsource : t.sourceText i = body := by
      rw [Tree.sourceText, htext]
      show (Text.slice? text (t.node i).entry.span.start (t.node i).entry.span.stop).getD "" = body
      rw [hslice]
      rfl
    rw [← hr, Tree.request, hsource]
    rfl
  refine ⟨t, hfinish, ⟨htext, ?_, fun i c hc => ?_, fun i => ?_⟩, ?_⟩
  · have hanswers := h.answers
    rw [hentries, List.map_map] at hanswers
    refine List.map_injective_iff.2 (Option.some_injective Request) ?_
    rw [List.map_map, ← hanswers]
    exact List.map_congr_left fun i _ => (hrequest i).symm
  · exact t.contains_parent (Tree.mem_children_iff.1 hc)
  · -- the children of a node are its nodes in the order of their numbers
    have hordered := h.ordered
    rw [hentries, List.pairwise_map, Tree.ids, List.pairwise_iff_getElem] at hordered
    have hlater (c d : t.Id) (hcd : c.val < d.val) (hparent : (t.node c).parent = (t.node d).parent) :
        (t.span c).stop ≤ (t.span d).start := by
      have hpair := hordered c.val d.val (by simp) (by simp) hcd
      simp only [List.getElem_finRange] at hpair
      exact hpair hparent
    refine (t.sorted_children i).imp_of_mem fun {c d} hc hd hcd => hlater c d hcd ?_
    rw [Tree.parent_eq_some_iff.1 (Tree.mem_children_iff.1 hc),
      Tree.parent_eq_some_iff.1 (Tree.mem_children_iff.1 hd)]
  · rw [h.spans, hentries, List.map_map]
    rfl

/-- **Sketches are well formed**: whatever operations are done on a sketch, below whatever nodes in
    turn, if they all succeed then the finished sketch is a tree that is drawn as the operations
    say, and the spans that were recorded on the way are those of its nodes. -/
theorem sketch_wellFormed (text : String) (ops : List SketchOp) (s : Sketch)
    (h : ops.foldlM SketchOp.run (.ofText text) = .ok s) :
    ∃ t pieces, s.finish = .ok t ∧ ops.mapM SketchOp.piece? = some pieces ∧
      t.DrawnAs text (⟨.compilationUnit, "", text.toList⟩ :: Piece.requestsAll pieces) ∧
      s.spans.toList = t.ids.map t.span := by
  obtain ⟨pieces, hpieces, hsound⟩ := (Sketch.Sound.ofText text).runAll h
  obtain ⟨t, hfinish, hdrawn, hspans⟩ := hsound.exists_tree
  exact ⟨t, pieces, hfinish, hpieces, hdrawn, hspans⟩

/-- Operations below several nodes in turn, on a text with characters of more than one byte. -/
def unitOps : List SketchOp :=
  [.package ['é'], .classDecl 0 "class Ü \x7b é \x7d".toList, .node 3 .block "\x7b é \x7d".toList,
    .leaf 0 (.ofName "LineComment") "// ö".toList, .name 6 ['é']]

theorem sketch_wellFormed_unitOps :
    ∃ s t, unitOps.foldlM SketchOp.run (.ofText "package é; class Ü \x7b é \x7d // ö") = .ok s ∧
      s.finish = .ok t ∧ s.spans.toList = t.ids.map t.span ∧
      t.ids.map (fun i => (t.sourceText i).toList) =
        ["package é; class Ü \x7b é \x7d // ö".toList, "package é;".toList, ['é'],
          "class Ü \x7b é \x7d".toList, "class".toList, ['Ü'], "\x7b é \x7d".toList, "// ö".toList,
          ['é']] := by
  have hrun : (unitOps.foldlM SketchOp.run
      (.ofText "package é; class Ü \x7b é \x7d // ö")).isOk = true := by
    decide +kernel
  obtain ⟨s, hs⟩ := exists_of_isOk hrun
  obtain ⟨t, pieces, hfinish, hpieces, hdrawn, hspans⟩ := sketch_wellFormed _ _ s hs
  refine ⟨s, t, hs, hfinish, hspans, ?_⟩
  have hsnippets : (unitOps.mapM SketchOp.piece?).map (fun ps =>
      (Piece.requestsAll ps).map Request.snippet) = some ["package é;".toList, ['é'],
        "class Ü \x7b é \x7d".toList, "class".toList, ['Ü'], "\x7b é \x7d".toList, "// ö".toList,
        ['é']] := by
    decide +kernel
  rw [hpieces, Option.map_some] at hsnippets
  have htexts := congrArg (List.map Request.snippet) hdrawn.requests
  rw [List.map_map, List.map_cons, Option.some.inj hsnippets] at htexts
  exact htexts

end Recast
