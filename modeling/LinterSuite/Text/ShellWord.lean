/-!
# Command lines as shell words

Messages show a command as one line that a shell would read back as the same words.

## Main definitions

* `Text.isPlainWordChar`: characters that need no quoting
* `Text.shellWord`: one word
* `Text.shellLine`: words joined by spaces
-/

namespace LinterSuite.Text

/-- ASCII letters and digits, and the punctuation that no shell interprets. -/
def isPlainWordChar (c : Char) : Bool := c.isAlphanum || "_@%+=:,./-".toList.contains c

/-- The word in single quotes unless it is plain; a single quote leaves and re-enters the quotes
around a double-quoted one. -/
def shellWord (s : String) : String :=
  if s.isEmpty then "''"
  else if s.toList.all isPlainWordChar then s
  else
    let body := s.toList.flatMap fun c => if c = '\'' then "'\"'\"'".toList else [c]
    String.ofList ('\'' :: body ++ ['\''])

/-- The words as one command line. -/
def shellLine (words : List String) : String := " ".intercalate (words.map shellWord)

end LinterSuite.Text
