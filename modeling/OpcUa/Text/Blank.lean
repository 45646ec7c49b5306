import OpcUa.Octets

/-!
Blanks are space, tab, line feed and carriage return, the white space of XML. Trimming removes them
from both ends and leaves every other octet in place.
-/

namespace OpcUa.Text

def isBlank (octet : UInt8) : Bool :=
  octet = 0x20 || octet = 0x09 || octet = 0x0A || octet = 0x0D

/-- The text without the blanks at its two ends. -/
def trim (text : Octets) : Octets :=
  ((text.dropWhile isBlank).reverse.dropWhile isBlank).reverse

end OpcUa.Text
