/-!
# Replacing a marker

One occurrence of a marker in a text, the first one, gives way to other text.
-/

namespace ContestInput.Text

/-- Puts `new` in the place of the first occurrence of `marker`; a text without one stays. -/
def replaceFirst (marker new : List Char) : List Char → List Char
  | [] => if marker.isEmpty then new else []
  | c :: rest =>
    if marker.isPrefixOf (c :: rest) then new ++ (c :: rest).drop marker.length
    else c :: replaceFirst marker new rest

end ContestInput.Text
