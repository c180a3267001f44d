import Pointbreak.Lib.Sorted
import Pointbreak.Lib.Text

/-!
# Highlight.Segment

One row of a diff, cut where a token span or an emphasis span begins or ends. The attributes of a
segment are looked up at its first byte only. They are those of all its bytes because the ends of
every span that counts are among the points of the cut (`neighbours_of_mem_windows`).
-/

namespace Pointbreak

open List

open Text (isCharBoundary)

inductive TokenKind where
  | keyword | string | comment | number | type | function | constant | operator | punctuation
  | variable | plain
deriving DecidableEq

structure TokenSpan where
  start : Nat
  end_ : Nat
  kind : TokenKind

structure EmphSpan where
  start : Nat
  end_ : Nat

structure AttributedSegment where
  start : Nat
  end_ : Nat
  kind : Option TokenKind
  emphasized : Bool
deriving DecidableEq

/-- A span that counts: not empty, within the row, and not cutting a character. -/
def validSpan (text : Text) (start end_ : Nat) : Bool :=
  start < end_ && end_ ≤ text.length && isCharBoundary text start && isCharBoundary text end_

/-- The ends of the row and of its spans, in ascending order, each once. -/
def segmentPoints (text : Text) (spans : List (Nat × Nat)) : List Nat :=
  sortedUnique ([0, text.length] ++ spans.flatMap fun span => [span.1, span.2])

def covers (start end_ byte : Nat) : Bool := start ≤ byte && byte < end_

def windowSegment (toks : List TokenSpan) (emph : List EmphSpan) (window : Nat × Nat) :
    Option AttributedSegment :=
  let (a, b) := window
  if a ≥ b then none
  else some
    { start := a
      end_ := b
      kind := (toks.find? fun t => covers t.start t.end_ a).map (·.kind)
      emphasized := emph.any fun e => covers e.start e.end_ a }

def attributedSegments (text : Text) (tokens : List TokenSpan) (emphasis : List EmphSpan) :
    List AttributedSegment :=
  let toks := tokens.filter fun t => validSpan text t.start t.end_
  let emph := emphasis.filter fun e => validSpan text e.start e.end_
  let points := segmentPoints text
    (toks.map (fun t => (t.start, t.end_)) ++ emph.map fun e => (e.start, e.end_))
  (points.zip points.tail).filterMap (windowSegment toks emph)

/-- The segments cover the bytes from `lo` up to `hi`, one after another and none of them empty. -/
def Tiles : Nat → List AttributedSegment → Nat → Prop
  | lo, [], hi => lo = hi
  | lo, s :: rest, hi => s.start = lo ∧ s.start < s.end_ ∧ Tiles s.end_ rest hi

section Sweep

variable {text : Text} {spans : List (Nat × Nat)} {points : List Nat} {a b p : Nat}

theorem neighbours_of_mem_windows (h : points.Pairwise (· < ·))
    (hw : (a, b) ∈ points.zip points.tail) :
    a ∈ points ∧ b ∈ points ∧ ∀ p ∈ points, p ≤ a ∨ b ≤ p := by
  induction points with
  | nil => cases hw
  | cons p points ih =>
    cases points with
    | nil => cases hw
    | cons q points =>
      obtain ⟨hp, hrest⟩ := pairwise_cons.mp h
      rw [tail_cons, zip_cons_cons, mem_cons, Prod.mk.injEq] at hw
      obtain ⟨rfl, rfl⟩ | hw := hw
      · have hq := (pairwise_cons.mp hrest).1
        simp only [mem_cons, true_or, or_true, true_and]
        rintro x (rfl | rfl | hx)
        · exact .inl le_rfl
        · exact .inr le_rfl
        · exact .inr (hq x hx).le
      · obtain ⟨ha, hb, hnone⟩ := ih hrest hw
        refine ⟨.tail _ ha, .tail _ hb, fun x hx => ?_⟩
        obtain rfl | hx := mem_cons.mp hx
        · exact .inl (hp a ha).le
        · exact hnone x hx

theorem tiles_windows {toks : List TokenSpan} {emph : List EmphSpan}
    (h : (a :: points).Pairwise (· < ·)) (hb : b ∈ a :: points)
    (hmax : ∀ p ∈ a :: points, p ≤ b) :
    Tiles a (((a :: points).zip points).filterMap (windowSegment toks emph)) b := by
  induction points generalizing a with
  | nil =>
    rw [mem_singleton] at hb
    exact hb.symm
  | cons p points ih =>
    obtain ⟨hp, hrest⟩ := pairwise_cons.mp h
    have hlt : a < p := hp p (.head _)
    have hle := hmax p (.tail _ (.head _))
    simp only [zip_cons_cons, filterMap_cons, windowSegment, if_neg hlt.not_ge]
    refine ⟨rfl, hlt, ih hrest ?_ fun x hx => hmax x (.tail _ hx)⟩
    exact (mem_cons.mp hb).resolve_left (by omega)

theorem mem_segmentPoints : p ∈ segmentPoints text spans ↔
    p = 0 ∨ p = text.length ∨ ∃ span ∈ spans, p = span.1 ∨ p = span.2 := by
  simp [segmentPoints, mem_sortedUnique]

theorem pairwise_segmentPoints : (segmentPoints text spans).Pairwise (· < ·) :=
  (isSortedUnique_iff.mp (isSortedUnique_sortedUnique _)).imp Nat.compare_eq_lt.mp

theorem boundary_of_mem_segmentPoints (hspans : ∀ span ∈ spans, validSpan text span.1 span.2 = true)
    (h : p ∈ segmentPoints text spans) : p ≤ text.length ∧ isCharBoundary text p = true := by
  obtain rfl | rfl | ⟨span, hspan, hp⟩ := mem_segmentPoints.mp h
  · exact ⟨Nat.zero_le _, rfl⟩
  · simp [isCharBoundary]
  · have hvalid := hspans span hspan
    simp only [validSpan, Bool.and_eq_true, decide_eq_true_eq] at hvalid
    obtain ⟨⟨⟨hlt, hle⟩, hstart⟩, hend⟩ := hvalid
    obtain rfl | rfl := hp
    · exact ⟨by omega, hstart⟩
    · exact ⟨hle, hend⟩

end Sweep

/-- The segments tile the row, do not cut a character, and carry the attributes of each of their
bytes: the kind of the first valid token span that covers it, and whether a valid emphasis does. -/
theorem attributed_segments_tile (text : Text) (tokens : List TokenSpan)
    (emphasis : List EmphSpan) :
    Tiles 0 (attributedSegments text tokens emphasis) text.length ∧
    ∀ s ∈ attributedSegments text tokens emphasis,
      isCharBoundary text s.start = true ∧ isCharBoundary text s.end_ = true ∧
      ∀ byte, s.start ≤ byte → byte < s.end_ →
        s.kind = (tokens.find? fun t =>
          validSpan text t.start t.end_ && covers t.start t.end_ byte).map (·.kind) ∧
        (s.emphasized = true ↔ ∃ e ∈ emphasis,
          validSpan text e.start e.end_ = true ∧ covers e.start e.end_ byte = true) := by
  rw [attributedSegments]
  generalize htoks : tokens.filter (fun t => validSpan text t.start t.end_) = toks
  generalize hemph : emphasis.filter (fun e => validSpan text e.start e.end_) = emph
  generalize hspans : toks.map (fun t => (t.start, t.end_)) ++
    emph.map (fun e => (e.start, e.end_)) = spans
  have hbound : ∀ p ∈ segmentPoints text spans,
      p ≤ text.length ∧ isCharBoundary text p = true := by
    refine fun p => boundary_of_mem_segmentPoints ?_
    subst hspans htoks hemph
    rintro span hspan
    obtain hspan | hspan := mem_append.mp hspan
    · obtain ⟨t, ht, rfl⟩ := mem_map.mp hspan
      exact (mem_filter.mp ht).2
    · obtain ⟨e, he, rfl⟩ := mem_map.mp hspan
      exact (mem_filter.mp he).2
  have hsorted := @pairwise_segmentPoints text spans
  have hmem := @mem_segmentPoints text spans
  generalize segmentPoints text spans = points at hsorted hbound hmem
  constructor
  · have hfirst : 0 ∈ points := hmem.mpr (.inl rfl)
    cases points with
    | nil => cases hfirst
    | cons p points =>
      obtain rfl | hlater := mem_cons.mp hfirst
      · exact tiles_windows hsorted (hmem.mpr (.inr (.inl rfl))) fun p hp => (hbound p hp).1
      · cases (pairwise_cons.mp hsorted).1 0 hlater
  · intro s hs
    obtain ⟨⟨a, b⟩, hwindow, hs⟩ := mem_filterMap.mp hs
    rw [windowSegment, Option.ite_none_left_eq_some] at hs
    obtain ⟨-, ⟨⟩⟩ := hs
    obtain ⟨ha, hb, hnone⟩ := neighbours_of_mem_windows hsorted hwindow
    refine ⟨(hbound a ha).2, (hbound b hb).2, ?_⟩
    intro byte (hle : a ≤ byte) (hlt : byte < b)
    -- no end of a span lies behind the first byte and not behind this one
    have hcovers : ∀ span ∈ spans, covers span.1 span.2 a = covers span.1 span.2 byte := by
      intro span hspan
      have hstart := hnone span.1 (hmem.mpr (.inr (.inr ⟨span, hspan, .inl rfl⟩)))
      have hend := hnone span.2 (hmem.mpr (.inr (.inr ⟨span, hspan, .inr rfl⟩)))
      rw [covers, covers, Bool.eq_iff_iff]
      simp only [Bool.and_eq_true, decide_eq_true_eq]
      omega
    simp only [← hspans, forall_mem_append, forall_mem_map] at hcovers
    constructor
    · rw [← head?_filter, filter_congr hcovers.1, head?_filter, ← htoks,
        find?_filter]
      simp
    · have hin : ∀ e, e ∈ emph ↔ e ∈ emphasis ∧ validSpan text e.start e.end_ = true := by
        simp [← hemph]
      simp only [any_eq_true, ← and_assoc, ← hin]
      exact exists_congr fun e => and_congr_right fun he => by rw [hcovers.2 e he]

/-- A keyword, a string that would cut the second character, and a comment. -/
def rowTokens : List TokenSpan := [⟨0, 3, .keyword⟩, ⟨2, 6, .string⟩, ⟨0, 5, .comment⟩]

theorem row_tokens_segmented :
    Tiles 0 (attributedSegments (text "héllo") rowTokens [⟨3, 4⟩, ⟨5, 4⟩]) 6 ∧
    ⟨3, 4, some .comment, true⟩ ∈ attributedSegments (text "héllo") rowTokens [⟨3, 4⟩, ⟨5, 4⟩] ∧
    isCharBoundary (text "héllo") 3 = true ∧
    (rowTokens.find? fun t => validSpan (text "héllo") t.start t.end_ &&
      covers t.start t.end_ 3).map (·.kind) = some .comment := by
  obtain ⟨htiles, hsegments⟩ :=
    attributed_segments_tile (text "héllo") rowTokens [⟨3, 4⟩, ⟨5, 4⟩]
  have hmem : ⟨3, 4, some .comment, true⟩ ∈
      attributedSegments (text "héllo") rowTokens [⟨3, 4⟩, ⟨5, 4⟩] := by
    decide +kernel
  obtain ⟨hstart, -, hbytes⟩ := hsegments _ hmem
  exact ⟨htiles, hmem, hstart, (hbytes 3 le_rfl (Nat.lt_succ_self 3)).1.symm⟩

end Pointbreak
