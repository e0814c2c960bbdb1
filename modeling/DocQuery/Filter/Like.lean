/-!
# Patterns of `LIKE`

A `LIKE` pattern has two wildcards, the percent sign for any text and the underscore for any one
character. `likeRegex` is the regular expression that matches the same texts.
-/

namespace DocQuery.Filter

/-- The characters with a meaning in regular expressions. -/
def regexSpecials : List Char :=
  ['\\', '.', '+', '*', '?', '(', ')', '|', '[', ']', '\x7b', '\x7d', '^', '$', '#', '&', '-', '~']

/-- A character as it stands for itself in a regular expression. -/
def escapeRegex (c : Char) : List Char := if regexSpecials.contains c then ['\\', c] else [c]

/-- The regular expression of one character of a pattern. -/
def likeChar (c : Char) : List Char :=
  if c = '%' then ['.', '*'] else if c = '_' then ['.'] else escapeRegex c

/-- The regular expression of a pattern. -/
def likeRegex (pattern : String) : String := String.ofList (pattern.toList.flatMap likeChar)

end DocQuery.Filter
