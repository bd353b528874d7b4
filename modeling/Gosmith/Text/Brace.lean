namespace Gosmith.Text

@[match_pattern, simp] abbrev braceOpen : String := "\x7b"

@[match_pattern, simp] abbrev braceClose : String := "\x7d"

def braced (text : String) : String :=
  braceOpen ++ text ++ braceClose

@[simp] abbrev backquote : Char := '\x60'

def backquoted (text : String) : String :=
  "\x60" ++ text ++ "\x60"

end Gosmith.Text
