/-!
# White space

The characters with Unicode's property White_Space, and the text that is left when they are
taken off both ends. No line separator, tab or no-break space is forgotten, and no zero-width
character counts.
-/

namespace ContestInput.Text

/-- Unicode's White_Space characters. -/
def isBlank (c : Char) : Bool :=
  c = ' ' || ('\t' ≤ c && c ≤ '\r') || c = '\u0085' || c = '\u00A0' || c = '\u1680' ||
    ('\u2000' ≤ c && c ≤ '\u200A') || c = '\u2028' || c = '\u2029' || c = '\u202F' ||
    c = '\u205F' || c = '\u3000'

def trim (s : List Char) : List Char :=
  ((s.dropWhile isBlank).reverse.dropWhile isBlank).reverse

end ContestInput.Text
