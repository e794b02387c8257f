import AgentComms.Library.Run

/-!
# Text

Whitespace as `str.isspace` and `str.strip` have it.
-/

namespace AgentComms.Library

def isSpace (char : Char) : Bool :=
  let code := char.toNat
  9 ≤ code && code ≤ 13 || 28 ≤ code && code ≤ 32 || code = 0x85 || code = 0xa0 ||
    code = 0x1680 || 0x2000 ≤ code && code ≤ 0x200a || code = 0x2028 || code = 0x2029 ||
    code = 0x202f || code = 0x205f || code = 0x3000

/-- `not text.strip()`. -/
def blank (text : String) : Bool := text.toList.all isSpace

/-- `text.strip()`. -/
def strip (text : String) : String :=
  String.ofList (((text.toList.dropWhile isSpace).reverse.dropWhile isSpace).reverse)

end AgentComms.Library
