import CodeAtlas.Text.Cursor

/-!
# Frames

A frame says what has to stand before and behind a piece of text. Its sites on a line are found from left
to right: at the first place from which the frame matches, the preferred match counts, and the search goes
on where that match ends.
-/

namespace CodeAtlas

open Text (Cursor Matcher)

/-- What has to stand before and behind a piece of text. -/
structure Frame where
  lead : Matcher
  trail : Matcher

/-- A piece of text found in a frame. -/
structure Site where
  /-- Where the piece starts. -/
  start : Cursor
  /-- Where the piece ends. -/
  stop : Cursor
  /-- Where the frame ends. -/
  frameEnd : Cursor

namespace Frame

/-- All ways in which the frame matches from a place, the preferred one first. -/
def matchesAt (f : Frame) (piece : Matcher) (c : Cursor) : List Site :=
  (f.lead c).flatMap fun start =>
    (piece start).flatMap fun stop =>
      (f.trail stop).map fun frameEnd => ⟨start, stop, frameEnd⟩

/-- The sites from a place on, once `skip` more characters are passed over. -/
def sitesFrom (f : Frame) (piece : Matcher) :
    (skip : Nat) → (before after : List Char) → List Site
  | _, _, [] => []
  | skip + 1, before, c :: after => sitesFrom f piece skip (c :: before) after
  | 0, before, c :: after =>
    match (f.matchesAt piece ⟨before, c :: after⟩).head? with
    | none => sitesFrom f piece 0 (c :: before) after
    | some site =>
      site :: sitesFrom f piece (site.frameEnd.column - (before.length + 1)) (c :: before) after

/-- The sites of a piece of text on a line. -/
def sites (f : Frame) (piece : Matcher) (line : List Char) : List Site :=
  f.sitesFrom piece 0 [] line

end Frame

namespace Site

/-- The text of the piece. -/
def text (s : Site) : List Char :=
  (s.stop.before.take (s.stop.column - s.start.column)).reverse

end Site

end CodeAtlas
