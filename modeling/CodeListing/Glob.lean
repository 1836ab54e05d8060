import CodeListing.Text.LowerCase

/-!
# Name patterns

A pattern matches a whole text, ignoring case: a star stands for any row of characters, a question
mark for one character, and everything else for itself.  Matching goes from left to right; where it
gets stuck, the last star takes one character more.
-/

set_option autoImplicit false

namespace CodeListing.Glob

/-- How far a pattern gets along a text before its next star. -/
inductive Progress where
  /-- The text is used up, and this is the answer. -/
  | finished (answer : Bool)
  /-- A star is next; the pattern and the text behind it. -/
  | star (pattern text : List Char)
  /-- The next characters do not agree. -/
  | stuck
  deriving DecidableEq, Repr

/-- Goes along pattern and text up to the next star.  A character that agrees with itself is passed
before a star is looked for, so a star in the pattern passes a star in the text. -/
def advance : List Char → List Char → Progress
  | pattern, [] => .finished (pattern.all (· == '*'))
  | [], _ :: _ => .stuck
  | p :: pattern, t :: text =>
    if p == '?' || p == t then advance pattern text
    else if p == '*' then .star pattern (t :: text)
    else .stuck

/-- What is left of a pattern behind its first star is shorter than the pattern. -/
theorem length_of_advance_eq_star {pattern text rest behind : List Char}
    (h : advance pattern text = .star rest behind) : rest.length < pattern.length := by
  fun_induction advance pattern text with
  | case1 => simp at h
  | case2 => simp at h
  | case3 p pattern t text _ ih =>
    have := ih h
    simp only [List.length_cons]
    omega
  | case4 => simp_all
  | case5 => simp at h

/-- Matches the pattern behind a star at the first place of the text where its part up to the next
star fits. -/
def matchBehindStar (pattern text : List Char) : Bool :=
  match _h : advance pattern text with
  | .finished answer => answer
  | .star rest behind => matchBehindStar rest behind
  | .stuck =>
    match text with
    | [] => false
    | _ :: shorter => matchBehindStar pattern shorter
termination_by (pattern.length, text.length)
decreasing_by
  · exact Prod.Lex.left _ _ (length_of_advance_eq_star _h)
  · exact Prod.Lex.right _ (by simp)

/-- Matches a whole text, both already lowered. -/
def matchChars (pattern text : List Char) : Bool :=
  match advance pattern text with
  | .finished answer => answer
  | .star rest behind => matchBehindStar rest behind
  | .stuck => false

/-- The pattern matches the whole text, ignoring case. -/
def matches? (pattern text : String) : Bool :=
  matchChars (Text.lowerChars pattern.toList) (Text.lowerChars text.toList)

/-- Some pattern matches the whole text. -/
def anyMatches (patterns : List String) (text : String) : Bool :=
  patterns.any (matches? · text)

end CodeListing.Glob
