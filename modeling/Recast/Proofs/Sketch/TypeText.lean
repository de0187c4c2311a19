import Recast.Proofs.Sketch.WellFormed

/-!
# Types in sketches

The text of a type is taken apart into texts that stand in it one after the other, and each of
these is taken apart again. The sketch places a part at its first occurrence, which may not be where
it was taken from; but it is never later than that, so what comes after it is still left for the
next part.

* `Text.InOrder`: texts that stand one after the other in a run;
* `Piece.Fits`: in each node of a piece the snippets of the parts stand one after the other;
* `fits_ofChars`: **the piece of a type fits, whatever its text**;
* `Sketch.left?`: what is left of a node for its next child;
* `Sketch.Extends`: what drawing below a node leaves as it was;
* `Sketch.Sound.exists_addPiece`: **a piece that fits is drawn wherever its snippet is left**;
* `type_drawn`: **a type is drawn wherever its text is left.**
-/

namespace Recast

/-! ## 1. Texts one after the other -/

namespace Text

/-- Texts that stand in a run one after the other. -/
def InOrder : List (List Char) → List Char → Prop
  | [], _ => True
  | t :: ts, cs => ∃ before after, cs = before ++ (t ++ after) ∧ InOrder ts after

/-- They stand in every longer run, too. -/
theorem InOrder.mono {ts : List (List Char)} {cs ds : List Char} (h : InOrder ts cs)
    (hcs : cs <:+: ds) : InOrder ts ds := by
  induction ts generalizing cs ds with
  | nil => trivial
  | cons t ts ih =>
    obtain ⟨before, after, rfl, hts⟩ := h
    obtain ⟨front, back, rfl⟩ := hcs
    refine ⟨front ++ before, after ++ back, ?_, ih hts (List.prefix_append after back).isInfix⟩
    simp only [List.append_assoc]

/-- So do texts that stand in them. -/
theorem InOrder.map {α : Type} {f g : α → List Char} {as : List α} {cs : List Char}
    (h : InOrder (as.map f) cs) (hg : ∀ a ∈ as, g a <:+: f a) : InOrder (as.map g) cs := by
  induction as generalizing cs with
  | nil => trivial
  | cons a as ih =>
    rw [List.forall_mem_cons] at hg
    obtain ⟨before, after, rfl, has⟩ := h
    obtain ⟨front, back, hfront⟩ := hg.1
    refine ⟨before ++ front, back ++ after, ?_, ?_⟩
    · rw [← hfront]
      simp only [List.append_assoc]
    · exact (ih has hg.2).mono (List.suffix_append back after).isInfix

theorem inOrder_singleton {t cs : List Char} (h : t <:+: cs) : InOrder [t] cs := by
  obtain ⟨before, after, rfl⟩ := h
  exact ⟨before, after, List.append_assoc .., trivial⟩

theorem inOrder_splitTopLevelAux (depth : Nat) (part cs : List Char) :
    InOrder (splitTopLevelAux depth part cs) (part.reverse ++ cs) := by
  -- a character that does not end the part moves into it
  have hmove : ∀ (c : Char) (part cs : List Char),
      (c :: part).reverse ++ cs = part.reverse ++ c :: cs := fun c part cs => by
    rw [List.reverse_cons, List.append_assoc, List.singleton_append]
  induction cs generalizing depth part with
  | nil =>
    rw [splitTopLevelAux, List.append_nil]
    split
    · trivial
    · exact inOrder_singleton (trim_isInfix _)
  | cons c cs ih =>
    rw [splitTopLevelAux]
    split
    · rw [← hmove]
      exact ih (depth + 1) (c :: part)
    · split
      · rw [← hmove]
        exact ih (depth - 1) (c :: part)
      · split
        · obtain ⟨front, back, hpart⟩ := trim_isInfix part.reverse
          refine ⟨front, back ++ c :: cs, ?_, (ih depth []).mono ?_⟩
          · rw [← List.append_assoc, ← List.append_assoc, hpart]
          · exact (List.suffix_append (back ++ [c]) cs).isInfix.trans (by simp)
        · rw [← hmove]
          exact ih depth (c :: part)

/-- The parts between commas stand one after the other. -/
theorem inOrder_splitTopLevel (cs : List Char) : InOrder (splitTopLevel cs) cs :=
  inOrder_splitTopLevelAux 0 [] cs

end Text

/-! ## 2. Pieces that fit -/

namespace Piece

/-- The text of the node at the top. -/
def snippet : Piece → List Char
  | .node request _ => request.snippet

mutual

/-- In each node of a piece the snippets of the parts stand one after the other. -/
def Fits : Piece → Prop
  | .node request parts => Text.InOrder (parts.map snippet) request.snippet ∧ FitsAll parts

/-- Each of some pieces fits. -/
def FitsAll : List Piece → Prop
  | [] => True
  | p :: ps => p.Fits ∧ FitsAll ps

end

theorem fitsAll_map {α : Type} {f : α → Piece} {as : List α} (h : ∀ a ∈ as, (f a).Fits) :
    FitsAll (as.map f) := by
  induction as with
  | nil =>
    rw [List.map_nil, FitsAll]
    trivial
  | cons a as ih =>
    rw [List.forall_mem_cons] at h
    rw [List.map_cons, FitsAll]
    exact ⟨h.1, ih h.2⟩

theorem fits_leaf (kind : Kind) (text : List Char) : (leaf kind text).Fits := by
  rw [leaf, Fits, FitsAll]
  exact ⟨trivial, trivial⟩

/-- A node with a single part, whose text stands in that of the node. -/
theorem fits_plain_singleton {kind : Kind} {text : List Char} {p : Piece} (h : p.snippet <:+: text)
    (hp : p.Fits) : (plain kind text [p]).Fits := by
  rw [plain, Fits, FitsAll, FitsAll]
  exact ⟨Text.inOrder_singleton h, hp, trivial⟩

end Piece

theorem typePieces_eq_map (ts : List TypeText) : typePieces ts = ts.map typePiece := by
  induction ts with
  | nil => rw [typePieces, List.map_nil]
  | cons t ts ih => rw [typePieces, ih, List.map_cons]

theorem snippet_typePiece (t : TypeText) : (typePiece t).snippet = t.text := by
  cases t with
  | array text element => rw [typePiece]; rfl
  | generic text base arguments => rw [typePiece]; rfl
  | wildcard text bound => cases bound <;> rw [typePiece] <;> rfl
  | primitive text => rw [typePiece]; rfl
  | named text => rw [typePiece]; rfl

namespace TypeText

theorem splitGeneric?_eq_some {cs base inner : List Char}
    (h : splitGeneric? cs = some (base, inner)) : cs = base ++ '<' :: (inner ++ ['>']) := by
  rw [splitGeneric?] at h
  split at h
  · cases h
  · rename_i b rest hsplit
    obtain ⟨hlast, h⟩ := Option.ite_none_right_eq_some.1 h
    obtain ⟨rfl, rfl⟩ := Prod.mk.inj (Option.some.inj h)
    rw [Text.splitAtChar?_eq_some hsplit, List.dropLast_append_getLast? _ hlast]

theorem suffix_of_bound? {cs bound : List Char} (h : bound? cs = some bound) : bound <:+ cs := by
  refine List.IsSuffix.trans ?_ (List.dropWhile_suffix Text.isBlank)
  rw [bound?] at h
  split at h
  · rename_i b hb
    cases h
    exact ⟨_, (Text.dropFront?_eq_some hb).symm⟩
  · exact ⟨_, (Text.dropFront?_eq_some h).symm⟩

/-- **The piece of a type fits**, whatever the text of the type. The induction is that of taking the
    text apart; of an argument it is only known that its text stands in what it was made of. -/
theorem fits_ofChars (cs : List Char) :
    (ofChars cs).text = Text.trim cs ∧ (typePiece (ofChars cs)).Fits := by
  refine ofChars.induct_unfolding
    (fun cs t => t.text = Text.trim cs ∧ (typePiece t).Fits)
    (fun cs t => t.text <:+: cs ∧ (typePiece t).Fits) ?array ?generic ?primitive ?named
    ?bounded ?unbounded ?type cs
  case array =>
    rintro cs element hback ⟨htext, hfits⟩
    refine ⟨rfl, ?_⟩
    have hpart : element <:+: Text.trim cs := by
      rw [Text.dropBack?_eq_some hback]
      exact (List.prefix_append _ _).isInfix
    rw [typePiece]
    refine Piece.fits_plain_singleton ?_ hfits
    rw [snippet_typePiece, htext]
    exact (Text.trim_isInfix element).trans hpart
  case generic =>
    rintro cs - base inner hsplit ⟨htext, hfits⟩ harguments
    refine ⟨rfl, ?_⟩
    have hmap : ((Text.splitTopLevel inner).attach.map fun a => ofArgument a.1) =
        (Text.splitTopLevel inner).map ofArgument := List.attach_map_val
    show (typePiece (.generic _ _ ((Text.splitTopLevel inner).attach.map fun a =>
      ofArgument a.1))).Fits
    rw [hmap, typePiece, Piece.plain, Piece.Fits, Piece.FitsAll, typePieces_eq_map, List.map_map]
    refine ⟨?_, hfits, Piece.fitsAll_map fun a ha => (harguments a ha).2⟩
    obtain ⟨front, back, hbase⟩ := Text.trim_isInfix base
    show Text.InOrder ((typePiece (ofChars base)).snippet :: _) (Text.trim cs)
    rw [snippet_typePiece, htext, List.map_map, TypeText.splitGeneric?_eq_some hsplit]
    refine ⟨front, back ++ '<' :: (inner ++ ['>']), ?_, ?_⟩
    · rw [← List.append_assoc, ← List.append_assoc, hbase]
    · have hargs : Text.InOrder ((Text.splitTopLevel inner).map id) inner := by
        rw [List.map_id]
        exact Text.inOrder_splitTopLevel inner
      refine (hargs.map fun a ha => ?_).mono ⟨back ++ ['<'], ['>'], by simp⟩
      show (typePiece (ofArgument a)).snippet <:+: a
      rw [snippet_typePiece]
      exact (harguments a ha).1
  case primitive =>
    intro cs _ _ _
    rw [typePiece]
    exact ⟨rfl, Piece.fits_leaf _ _⟩
  case named =>
    intro cs _ _ _
    rw [typePiece]
    exact ⟨rfl, Piece.fits_plain_singleton List.infix_rfl (Piece.fits_leaf _ _)⟩
  case bounded =>
    rintro rest bound hbound ⟨htext, hfits⟩
    refine ⟨List.infix_rfl, ?_⟩
    rw [typePiece]
    refine Piece.fits_plain_singleton ?_ hfits
    rw [snippet_typePiece, htext]
    exact (Text.trim_isInfix bound).trans
      ((suffix_of_bound? hbound).trans (List.suffix_cons '?' rest)).isInfix
  case unbounded =>
    intro rest _
    refine ⟨List.infix_rfl, ?_⟩
    rw [typePiece, Piece.plain, Piece.Fits, Piece.FitsAll]
    exact ⟨trivial, trivial⟩
  case type =>
    rintro cs - ⟨htext, hfits⟩
    refine ⟨?_, hfits⟩
    rw [htext]
    exact Text.trim_isInfix cs

end TypeText

/-! ## 3. What is left of a node -/

/-- What is left of a cut after the front of what it cuts out. -/
theorem Covers.drop {text : String} {span rest : Span} {front back : List Char}
    (h : Covers text span (front ++ back)) (hstart : rest.start = span.start + Text.bytes front)
    (hstop : span.stop = rest.stop) : Covers text rest back := by
  obtain ⟨before, after, htext, hbefore, hlength⟩ := h
  rw [Text.bytes_append] at hlength
  refine ⟨before ++ front, after, ?_, ?_, by omega⟩
  · rw [htext]
    simp only [List.append_assoc]
  · rw [hstart, hbefore, Text.bytes_append]

namespace Sketch

/-- What is left of a node for its next child: its text from where the search starts. -/
def left? (s : Sketch) (parent : Nat) : Option (List Char) := do
  let span ← s.spans[parent]?
  let rest ← Text.slice? s.arena.text (s.searchStart parent span) span.stop
  return rest.toList

theorem left?_eq_some {s : Sketch} {parent : Nat} {left : List Char} :
    s.left? parent = some left ↔ ∃ span, s.spans[parent]? = some span ∧
      Text.slice? s.arena.text (s.searchStart parent span) span.stop =
        some (String.ofList left) := by
  simp only [left?, Option.bind_eq_bind, Option.bind_eq_some_iff, Option.pure_def,
    Option.some.injEq]
  refine exists_congr fun span => and_congr_right fun _ => ?_
  constructor
  · rintro ⟨rest, hrest, rfl⟩
    rw [String.ofList_toList]
    exact hrest
  · intro h
    exact ⟨_, h, String.toList_ofList⟩

/-- A text that is left is located at its first occurrence. -/
theorem exists_locate {s : Sketch} {parent : Nat} {before snippet after : List Char}
    (h : s.left? parent = some (before ++ (snippet ++ after))) :
    ∃ span front back, s.spans[parent]? = some span ∧
      s.locate parent snippet = .ok
        (.ofLength (s.searchStart parent span + Text.bytes front) (Text.bytes snippet)) ∧
      s.left? parent = some (front ++ (snippet ++ back)) ∧ after <:+ back := by
  obtain ⟨span, hspan, hslice⟩ := left?_eq_some.1 h
  obtain ⟨front, back, hfind, hleft, hafter⟩ := Text.exists_offsetFrom? 0
    (rfl : before ++ (snippet ++ after) = _)
  refine ⟨span, front, back, hspan, ?_, by rw [h, hleft], hafter⟩
  have hoffset : (Text.slice? s.arena.text (s.searchStart parent span) span.stop).bind
      (fun rest => Text.offsetOf? snippet rest.toList) = some (Text.bytes front) := by
    rw [hslice, Option.bind_some, String.toList_ofList, Text.offsetOf?, hfind, Nat.zero_add]
  have hparent : s.span parent = .ok span := by
    unfold Sketch.span
    rw [hspan]
  unfold locate
  rw [hparent]
  dsimp only [bind, Except.bind]
  rw [hoffset]

/-- A node that is added is one more entry, one more span, and a new place where the search below
    its parent starts. -/
theorem add_eq_ok {s s' : Sketch} {parent id : Nat} {kind : Kind} {label : String}
    {snippet : List Char} (h : s.add parent kind label snippet = .ok (id, s')) :
    ∃ span arena, s.locate parent snippet = .ok span ∧ id = s.arena.size ∧
      s' = ⟨arena, s.spans.push span, (parent, span.stop) :: s.ends⟩ ∧
      parent < s.arena.size ∧ arena.text = s.arena.text ∧
      arena.entries = s.arena.entries ++ [⟨kind, label, span, some parent⟩] := by
  unfold Sketch.add at h
  obtain ⟨span, hlocate, h⟩ := bind_eq_ok.1 h
  by_cases hparent : parent < s.arena.nodes.size
  · obtain ⟨arena, hpush, htext, hentries⟩ := Arena.push_eq hparent kind label span
    rw [hpush] at h
    cases h
    exact ⟨span, arena, hlocate, rfl, rfl, hparent, htext, hentries⟩
  · rw [Arena.push, dif_neg hparent] at h
    cases h

/-- What drawing below a node leaves as it was: the nodes that are there stay, each new one hangs on
    the given node or on a new one, and of every other node there is as much left as before. -/
structure Extends (s s' : Sketch) (parent : Nat) : Prop where
  entries : ∃ es, s'.arena.entries = s.arena.entries ++ es ∧
    ∀ e ∈ es, ∃ p, e.parent = some p ∧ (p = parent ∨ s.arena.size ≤ p)
  left? : ∀ q < s.arena.size, q ≠ parent → s'.left? q = s.left? q

theorem Extends.refl (s : Sketch) (parent : Nat) : s.Extends s parent where
  entries := ⟨[], (List.append_nil _).symm, fun _ he => absurd he List.not_mem_nil⟩
  left? _ _ _ := rfl

theorem Extends.size_le {s s' : Sketch} {parent : Nat} (h : s.Extends s' parent) :
    s.arena.size ≤ s'.arena.size := by
  obtain ⟨es, hes, -⟩ := h.entries
  have hlength := congrArg List.length hes
  rw [List.length_append, Arena.length_entries, Arena.length_entries] at hlength
  show s.arena.nodes.size ≤ s'.arena.nodes.size
  omega

/-- What is drawn next goes below the same node or a new one. -/
theorem Extends.trans {s s₁ s₂ : Sketch} {parent below : Nat} (h : s.Extends s₁ parent)
    (h₁ : s₁.Extends s₂ below) (hbelow : below = parent ∨ s.arena.size ≤ below) :
    s.Extends s₂ parent where
  entries := by
    obtain ⟨es, hes, hparents⟩ := h.entries
    obtain ⟨fs, hfs, hparents₁⟩ := h₁.entries
    refine ⟨es ++ fs, by rw [hfs, hes, List.append_assoc], ?_⟩
    rw [List.forall_mem_append]
    refine ⟨hparents, fun e he => ?_⟩
    obtain ⟨p, hp, hnew⟩ := hparents₁ e he
    refine ⟨p, hp, ?_⟩
    rcases hnew with rfl | hnew
    · exact hbelow
    · exact .inr (Nat.le_trans h.size_le hnew)
  left? q hq hne := by
    have hne₁ : q ≠ below := by omega
    rw [h₁.left? q (Nat.lt_of_lt_of_le hq h.size_le) hne₁, h.left? q hq hne]

namespace Sound

variable {text : String} {asked : List Request} {s s' : Sketch} {parent : Nat}

theorem size_spans (h : s.Sound text asked) : s.spans.size = s.arena.size := by
  have hlength := congrArg List.length h.spans
  rwa [List.length_map, Arena.length_entries] at hlength

/-- A node hangs on its parent, and the other nodes do not notice. -/
theorem extends_add (h : s.Sound text asked) {id : Nat} {kind : Kind} {label : String}
    {snippet : List Char} (hadd : s.add parent kind label snippet = .ok (id, s')) :
    s.Extends s' parent := by
  obtain ⟨span, arena, -, -, rfl, -, htext, hentries⟩ := add_eq_ok hadd
  refine ⟨⟨_, hentries, List.forall_mem_singleton.2 ⟨parent, rfl, .inl rfl⟩⟩, fun q hq hne => ?_⟩
  have hspans : (s.spans.push span)[q]? = s.spans[q]? := by
    rw [Array.getElem?_push, if_neg (by rw [h.size_spans]; omega)]
  unfold Sketch.left?
  simp only [hspans, htext, searchStart_cons, if_neg (Ne.symm hne)]

mutual

theorem extends_addPiece : (p : Piece) → {s s' : Sketch} → {parent : Nat} → {done : List Request} →
    s.Sound text done → s.addPiece parent p = .ok s' → s.Extends s' parent
  | .node r parts, s, s', parent, done, h, hadd => by
    rw [Sketch.addPiece, bind_eq_ok] at hadd
    obtain ⟨⟨id, s₁⟩, hnode, hparts⟩ := hadd
    obtain ⟨-, -, -, rfl, -⟩ := add_eq_ok hnode
    exact (h.extends_add hnode).trans (extends_addPieces parts (h.add hnode) hparts)
      (.inr (Nat.le_refl _))

theorem extends_addPieces : (ps : List Piece) → {s s' : Sketch} → {parent : Nat} →
    {done : List Request} → s.Sound text done → s.addPieces parent ps = .ok s' →
    s.Extends s' parent
  | [], s, s', parent, done, h, hadd => by
    rw [Sketch.addPieces_nil] at hadd
    cases hadd
    exact .refl s parent
  | p :: ps, s, s', parent, done, h, hadd => by
    obtain ⟨s₁, hp, hps⟩ := Sketch.addPieces_cons.1 hadd
    exact (extends_addPiece p h hp).trans (extends_addPieces ps (h.addPiece p hp) hps) (.inl rfl)

end

/-- What is left of a node is cut out from where the search starts to the end of the node. -/
theorem left?_iff (h : s.Sound text asked) {q : Arena.Entry} {left : List Char}
    (hq : s.arena.entries[parent]? = some q) :
    s.left? parent = some left ↔ ∃ span : Span, span.start = s.searchStart parent q.span ∧
      span.stop = q.span.stop ∧ Covers text span left := by
  have hspan : s.spans[parent]? = some q.span := by
    rw [← Array.getElem?_toList, h.spans, List.getElem?_map, hq]
    rfl
  rw [left?_eq_some, hspan, h.text_eq]
  constructor
  · rintro ⟨_, heq, hslice⟩
    obtain rfl := Option.some.inj heq
    have hcovers : Covers text ⟨_, _, (h.ready parent q hq).le_stop⟩ (String.ofList left).toList :=
      slice?_eq_some_iff.1 hslice
    rw [String.toList_ofList] at hcovers
    exact ⟨⟨_, _, (h.ready parent q hq).le_stop⟩, rfl, rfl, hcovers⟩
  · rintro ⟨span, hstart, hstop, hcovers⟩
    refine ⟨q.span, rfl, ?_⟩
    rw [← hstart, ← hstop, slice?_eq_some_iff, String.toList_ofList]
    exact hcovers

/-- **A node is added wherever its snippet is left.** All of the snippet is left of the new node,
    and of the parent at least what stood after the snippet. -/
theorem exists_add (h : s.Sound text asked) (r : Request) {before after : List Char}
    (hleft : s.left? parent = some (before ++ (r.snippet ++ after))) :
    ∃ s', s.add parent r.kind r.label r.snippet = .ok (s.arena.size, s') ∧
      s'.left? s.arena.size = some r.snippet ∧
      ∃ back, s'.left? parent = some back ∧ after <:+ back := by
  obtain ⟨pspan, front, back, hpspan, hlocate, hfront, hafter⟩ := exists_locate hleft
  obtain ⟨q, hq, hcovers, -, hstop⟩ := h.covers_of_locate hlocate
  obtain rfl : q.span = pspan := by
    rw [← Array.getElem?_toList, h.spans, List.getElem?_map, hq] at hpspan
    exact Option.some.inj hpspan
  obtain ⟨rest, hstart, hrest, hcut⟩ := (h.left?_iff hq).1 hfront
  rw [← hstart] at hlocate hcovers hstop
  generalize hspan : Span.ofLength (rest.start + Text.bytes front) (Text.bytes r.snippet) = span
    at hlocate hcovers hstop
  obtain ⟨hparent, -⟩ := List.getElem?_eq_some_iff.1 hq
  have hnode := hparent
  rw [Arena.length_entries] at hnode
  obtain ⟨arena, hpush, -, hentries⟩ := Arena.push_eq hnode r.kind r.label span
  have hadd : s.add parent r.kind r.label r.snippet =
      .ok (s.arena.size, ⟨arena, s.spans.push span, (parent, span.stop) :: s.ends⟩) := by
    refine bind_eq_ok.2 ⟨span, hlocate, ?_⟩
    rw [hpush]
  have hsound := h.add hadd
  have hsize : s.arena.entries.length = s.arena.size := s.arena.length_entries
  refine ⟨_, hadd, ?_, back, ?_, hafter⟩
  · -- the new node has no children yet
    have hnew : arena.entries[s.arena.size]? = some ⟨r.kind, r.label, span, some parent⟩ := by
      rw [hentries, ← hsize]
      exact List.getElem?_concat_length
    have hfresh : ∀ e ∈ s.ends, e.1 ≠ s.arena.size := fun e he => by
      have hlt := h.known e he
      omega
    refine (hsound.left?_iff hnew).2 ⟨span, ?_, rfl, hcovers⟩
    rw [searchStart_cons, if_neg (by omega), searchStart_of_forall hfresh]
  · -- what is left of the parent begins where the new node ends
    have hold : arena.entries[parent]? = some q := by
      rw [hentries, List.getElem?_append_left hparent, hq]
    refine (hsound.left?_iff hold).2 ⟨⟨span.stop, q.span.stop, hstop⟩, ?_, rfl, ?_⟩
    · rw [searchStart_cons, if_pos rfl]
    · rw [← List.append_assoc] at hcut
      refine hcut.drop ?_ hrest
      show span.stop = _
      rw [Text.bytes_append, ← hspan]
      exact Nat.add_assoc ..

mutual

/-- **A piece that fits is drawn wherever its snippet is left**, and what stood after the snippet is
    still left then. By induction on the piece: below the node at the top all of its snippet is left
    for the parts, and drawing there takes nothing from the parent. -/
theorem exists_addPiece : (p : Piece) → p.Fits → {s : Sketch} → {parent : Nat} →
    {done : List Request} → {before after : List Char} → s.Sound text done →
    s.left? parent = some (before ++ (p.snippet ++ after)) →
    ∃ s', s.addPiece parent p = .ok s' ∧ ∃ back, s'.left? parent = some back ∧ after <:+ back
  | .node r parts, hfits, s, parent, done, before, after, h, hleft => by
    rw [Piece.Fits] at hfits
    obtain ⟨s₁, hadd, hnew, back, hback, hafter⟩ := h.exists_add r hleft
    obtain ⟨s', hparts⟩ := exists_addPieces parts hfits.2 (h.add hadd) hnew hfits.1
    refine ⟨s', bind_eq_ok.2 ⟨_, hadd, hparts⟩, back, ?_, hafter⟩
    obtain ⟨-, -, -, -, -, hparent, -⟩ := add_eq_ok hadd
    have hsize := (h.extends_add hadd).size_le
    rw [(extends_addPieces parts (h.add hadd) hparts).left? parent (by omega) (by omega)]
    exact hback

theorem exists_addPieces : (ps : List Piece) → Piece.FitsAll ps → {s : Sketch} → {parent : Nat} →
    {done : List Request} → {left : List Char} → s.Sound text done → s.left? parent = some left →
    Text.InOrder (ps.map Piece.snippet) left → ∃ s', s.addPieces parent ps = .ok s'
  | [], _, s, parent, done, left, h, hleft, horder => ⟨s, Sketch.addPieces_nil⟩
  | p :: ps, hfits, s, parent, done, left, h, hleft, horder => by
    rw [Piece.FitsAll] at hfits
    obtain ⟨before, after, hcut, horder⟩ := horder
    rw [hcut] at hleft
    obtain ⟨s₁, hp, back, hback, hafter⟩ := exists_addPiece p hfits.1 h hleft
    obtain ⟨s', hps⟩ := exists_addPieces ps hfits.2 (h.addPiece p hp) hback
      (horder.mono hafter.isInfix)
    exact ⟨s', Sketch.addPieces_cons.2 ⟨s₁, hp, hps⟩⟩

end

end Sound

end Sketch

/-! ## 4. Types in finished sketches -/

namespace Tree

theorem getElem?_map_ids {α : Type} (t : Tree) (f : t.Id → α) (i : t.Id) :
    (t.ids.map f)[i.val]? = some (f i) := by
  rw [List.getElem?_map, List.getElem?_eq_getElem (by simp [ids])]
  simp [ids]

/-- Nodes from one on are that node or below it, when the parents of the later ones are from it on,
    too. -/
theorem eq_or_mem_ancestors {t : Tree} (top : t.Id)
    (h : ∀ i : t.Id, top < i → ∃ p, t.parent i = some p ∧ top ≤ p) (i : t.Id) (hi : top ≤ i) :
    i = top ∨ top ∈ t.ancestors i := by
  -- up from a later node the numbers get smaller, until the one at the top
  induction hn : i.val using Nat.strongRecOn generalizing i with
  | ind n ih =>
    subst hn
    rcases Nat.eq_or_lt_of_le hi with heq | hlater
    · exact .inl (Fin.ext heq.symm)
    · obtain ⟨p, hp, hpnew⟩ := h i hlater
      have hpi : p < i := t.parent_val_lt (Tree.parent_eq_some_iff.1 hp)
      rw [Tree.ancestors_eq, hp]
      rcases ih p.val hpi p hpnew rfl with heq | hin
      · exact .inr (heq ▸ List.mem_cons_self)
      · exact .inr (List.mem_cons_of_mem _ hin)

/-- **What a finished tree has from an addition** to a sketch below a node: the nodes that were
    there stay, and the new ones are one node on the given parent, over the given text, and what is
    below it. -/
structure Adds (t : Tree) (s : Sketch) (parent : Nat) (snippet : List Char) (id : t.Id) : Prop where
  kept : t.entries.take s.arena.size = s.arena.entries
  parent : (t.parent id).map Fin.val = some parent
  sourceText : (t.sourceText id).toList = snippet
  added : ∀ i : t.Id, s.arena.size ≤ i.val ↔ i = id ∨ id ∈ t.ancestors i

end Tree

namespace Sketch.Sound

variable {text : String} {asked : List Request} {s s' : Sketch} {parent : Nat}

/-- What a piece adds to a sketch. -/
theorem exists_adds (h : s.Sound text asked) {p : Piece} (hadd : s.addPiece parent p = .ok s') :
    ∃ t, ∃ id : t.Id, s'.finish = .ok t ∧ id.val = s.arena.size ∧
      t.Adds s parent p.snippet id := by
  obtain ⟨r, parts⟩ := p
  obtain ⟨t, hfinish, hdrawn, -⟩ := (h.addPiece _ hadd).exists_tree
  have harena : t.toArena = s'.arena := Arena.toArena_of_finish hfinish
  rw [Sketch.addPiece, bind_eq_ok] at hadd
  obtain ⟨⟨id, s₁⟩, hnode, hparts⟩ := hadd
  have hbelow := extends_addPieces parts (h.add hnode) hparts
  obtain ⟨span, arena, -, rfl, rfl, hparent, -, hentries⟩ := add_eq_ok hnode
  obtain ⟨es, hes, hparents⟩ := hbelow.entries
  -- the entries of the tree: those that were there, the new node, and what is below it
  have hall : t.entries = s.arena.entries ++ (⟨r.kind, r.label, span, some parent⟩ :: es) := by
    rw [show t.entries = s'.arena.entries from congrArg Arena.entries harena, hes]
    show arena.entries ++ es = _
    rw [hentries, List.append_assoc, List.singleton_append]
  have hsize : s.arena.entries.length = s.arena.size := s.arena.length_entries
  have hlt : s.arena.size < t.nodes.size := by
    rw [← t.length_entries, hall, List.length_append, List.length_cons]
    omega
  have hentry (i : t.Id) : t.entries[i.val]? = some (t.node i).entry := by
    rw [t.entries_eq]
    exact t.getElem?_map_ids _ i
  have hnew : (t.node ⟨s.arena.size, hlt⟩).parent = some parent := by
    have hfirst := hentry ⟨s.arena.size, hlt⟩
    rw [hall, List.getElem?_append_right (Nat.le_of_eq hsize), hsize, Nat.sub_self] at hfirst
    exact (congrArg Arena.Entry.parent (Option.some.inj hfirst)).symm
  refine ⟨t, ⟨s.arena.size, hlt⟩, hfinish, rfl, ?_, ?_, ?_, fun i => ⟨?_, ?_⟩⟩
  case refine_1 => rw [hall, ← hsize, List.take_left]
  case refine_2 =>
    rw [Tree.parent_eq_some_iff (p := ⟨parent, Nat.lt_trans hparent hlt⟩) |>.2 hnew]
    rfl
  case refine_3 =>
    have hasked : asked.length = s.arena.size := by
      have hanswers := congrArg List.length h.answers
      rw [List.length_map, List.length_map, hsize] at hanswers
      exact hanswers.symm
    have hrequest := t.getElem?_map_ids t.request ⟨s.arena.size, hlt⟩
    rw [hdrawn.requests, Piece.requests, List.getElem?_append_right (Nat.le_of_eq hasked), hasked,
      Nat.sub_self] at hrequest
    exact (congrArg Request.snippet (Option.some.inj hrequest)).symm
  case refine_4 =>
    -- a later node is one of the entries after the new node
    refine Tree.eq_or_mem_ancestors ⟨s.arena.size, hlt⟩ (fun i hlater => ?_) i
    have hlater : s.arena.size < i.val := hlater
    have hmem : (t.node i).entry ∈ es := by
      have hget := hentry i
      rw [hall, List.getElem?_append_right (by omega), hsize,
        show i.val - s.arena.size = i.val - s.arena.size - 1 + 1 by omega,
        List.getElem?_cons_succ] at hget
      exact List.mem_of_getElem? hget
    obtain ⟨p, hp, hpnew⟩ := hparents _ hmem
    have hgrown := (h.extends_add hnode).size_le
    refine ⟨⟨p, Nat.lt_trans (t.parent_val_lt hp) i.isLt⟩, Tree.parent_eq_some_iff.2 hp, ?_⟩
    show s.arena.size ≤ p
    omega
  case refine_5 =>
    rintro (rfl | hin)
    · exact Nat.le_refl _
    · exact Nat.le_of_lt (Tree.lt_of_mem_ancestors hin)

end Sketch.Sound

namespace SketchM

variable {s s' : Sketch} {parent id : Nat}

/-- What is drawn below a node is not reported. -/
theorem eq_of_bind_pure {α : Type} {m : SketchM α} {i : Nat}
    (h : (m >>= fun _ => pure i) s = .ok (id, s')) : id = i := by
  obtain ⟨_, s₁, -, h⟩ := bind_apply_eq_ok.1 h
  exact (pure_apply_eq_ok.1 h).1.symm

theorem id_of_labeled {kind : Kind} {label : String} {snippet : List Char}
    (h : labeled parent kind label snippet s = .ok (id, s')) : id = s.arena.size := by
  obtain ⟨-, -, -, hid, -⟩ := Sketch.add_eq_ok h
  exact hid

/-- A type is reported as the node that was added first. -/
theorem id_of_typeText {t : TypeText} (h : typeText parent t s = .ok (id, s')) :
    id = s.arena.size := by
  cases t with
  | primitive text =>
    rw [typeText] at h
    exact id_of_labeled h
  | array text element =>
    rw [typeText, bind_apply_eq_ok] at h
    obtain ⟨i, s₁, hnode, h⟩ := h
    rw [eq_of_bind_pure h]
    exact id_of_labeled hnode
  | generic text base arguments =>
    rw [typeText, bind_apply_eq_ok] at h
    obtain ⟨i, s₁, hnode, h⟩ := h
    obtain ⟨_, s₂, -, h⟩ := bind_apply_eq_ok.1 h
    rw [eq_of_bind_pure h]
    exact id_of_labeled hnode
  | wildcard text bound =>
    cases bound with
    | none =>
      rw [typeText] at h
      exact id_of_labeled h
    | some bound =>
      rw [typeText, bind_apply_eq_ok] at h
      obtain ⟨i, s₁, hnode, h⟩ := h
      rw [eq_of_bind_pure h]
      exact id_of_labeled hnode
  | named text =>
    rw [typeText, bind_apply_eq_ok] at h
    obtain ⟨i, s₁, hnode, h⟩ := h
    split at h
    · rw [eq_of_bind_pure h]
      exact id_of_labeled hnode
    · rw [eq_of_bind_pure h]
      exact id_of_labeled hnode

end SketchM

/-- **A type is drawn wherever its text is left**, however arrays, generic types, wildcards and
    bounds are nested in the text or broken off: after any series of operations on a sketch, and
    below any node of which the text is left, without the blanks at its ends. The node that is
    reported hangs on that node and covers the text, and everything else that is new is below it. -/
theorem type_drawn (text : String) (ops : List SketchOp) (s : Sketch)
    (h : ops.foldlM SketchOp.run (.ofText text) = .ok s) (parent : Nat) (ty left : List Char)
    (hleft : s.left? parent = some left) (hty : Text.trim ty <:+: left) :
    ∃ s' t, ∃ id : t.Id, SketchM.type parent ty s = .ok (id.val, s') ∧ s'.finish = .ok t ∧
      t.Adds s parent (Text.trim ty) id := by
  obtain ⟨pieces, -, hsound⟩ := (Sketch.Sound.ofText text).runAll h
  obtain ⟨htext, hfits⟩ := TypeText.fits_ofChars ty
  have hsnippet : (typePiece (.ofChars ty)).snippet = Text.trim ty := by
    rw [snippet_typePiece, htext]
  rw [← hsnippet] at hty ⊢
  obtain ⟨before, after, hcut⟩ := hty
  rw [← hcut, List.append_assoc] at hleft
  obtain ⟨s', hadd, -⟩ := hsound.exists_addPiece _ hfits hleft
  obtain ⟨t, id, hfinish, hid, hadds⟩ := hsound.exists_adds hadd
  rw [← SketchM.sketch_typeText] at hadd
  obtain ⟨i, htype⟩ := SketchM.sketch_eq_ok.1 hadd
  rw [SketchM.id_of_typeText htype, ← hid] at htype
  exact ⟨s', t, id, htype, hfinish, hadds⟩

/-- A block with one child, after which a type is left: one that is an array inside a generic type,
    with a bound `e` that is found in the word `extends`, an empty argument, and an angle bracket
    too many. -/
def brokenTypeOps : List SketchOp :=
  [.node 0 .block "\x7b é Ü<a,? extends e,,é<>>[]> x \x7d".toList, .leaf 1 .modifier ['é']]

theorem type_drawn_brokenType :
    ∃ s s' t, ∃ id : t.Id,
      brokenTypeOps.foldlM SketchOp.run (.ofText "\x7b é Ü<a,? extends e,,é<>>[]> x \x7d") = .ok s ∧
      s.left? 1 = some " Ü<a,? extends e,,é<>>[]> x \x7d".toList ∧
      SketchM.type 1 " Ü<a,? extends e,,é<>>[]> ".toList s = .ok (id.val, s') ∧
      s'.finish = .ok t ∧ (t.parent id).map Fin.val = some 1 ∧
      (t.sourceText id).toList = "Ü<a,? extends e,,é<>>[]>".toList := by
  have hleft : ((brokenTypeOps.foldlM SketchOp.run
      (.ofText "\x7b é Ü<a,? extends e,,é<>>[]> x \x7d")).toOption.bind fun s => s.left? 1) =
        some " Ü<a,? extends e,,é<>>[]> x \x7d".toList := by
    decide +kernel
  obtain ⟨s, hs, hleft⟩ := Option.bind_eq_some_iff.1 hleft
  replace hs := eq_ok_of_toOption hs
  have htrim : Text.trim " Ü<a,? extends e,,é<>>[]> ".toList =
      "Ü<a,? extends e,,é<>>[]>".toList := by
    decide +kernel
  have hinfix : Text.trim " Ü<a,? extends e,,é<>>[]> ".toList <:+:
      " Ü<a,? extends e,,é<>>[]> x \x7d".toList := by
    decide +kernel
  obtain ⟨s', t, id, htype, hfinish, hadds⟩ := type_drawn _ _ s hs 1 _ _ hleft hinfix
  exact ⟨s, s', t, id, hs, hleft, htype, hfinish, hadds.parent, hadds.sourceText.trans htrim⟩

end Recast
