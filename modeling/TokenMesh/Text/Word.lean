namespace TokenMesh.Text

/-!
# Words in either case

The names of roles, shapes and failure modes are taken in any mixture of cases.  All of them are
plain ASCII words, so a character can only match if its lower case is an ASCII letter: those are
the ASCII letters and the Kelvin sign, whose lower case is a `k`.
-/

/-- The lower case of a character, as far as it can be an ASCII letter. -/
def lower (c : Char) : Char := if c = '\u212a' then 'k' else c.toLower

/-- Whether a text is the given lower-case ASCII word in some mixture of cases. -/
def isWord (word : String) (s : String) : Bool := s.toList.map lower == word.toList

end TokenMesh.Text
