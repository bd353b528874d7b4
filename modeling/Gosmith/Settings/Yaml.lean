import Gosmith.Settings.Yaml.Node

namespace Gosmith.Settings.Yaml

open Gosmith.Text

def isAllowed (c : Char) : Bool :=
  c == '\t' || c == '\n' || (0x20 ≤ c.toNat && c.toNat ≤ 0x7e) || c.toNat == 0x85 ||
    (0xa0 ≤ c.toNat && c.toNat ≠ 0xfffe && c.toNat ≠ 0xffff)

def dropMark : List Char → List Char
  | '\ufeff' :: rest => rest
  | cs => cs

def parse? (s : String) : Option Value := do
  let cs := dropMark (unifyNewlines s.toList)
  if cs.all isAllowed then (← Node.ofTokens? (← tokens? cs)).value? else none

end Gosmith.Settings.Yaml
