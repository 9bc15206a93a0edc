/-!
# Texts as bytes

Inside the shell every character of a text stands for one byte: counting, cutting and escapes all
work on bytes. Texts are taken apart when they come in and put together when they go out.
-/

namespace StubGen.Shell

/-- The bytes of a text, each as the character of its number. -/
def toBytes (text : String) : String :=
  String.ofList (text.toUTF8.toList.map fun byte => Char.ofNat byte.toNat)

/-- The text that some bytes make up, if they do. -/
def ofBytes? (bytes : String) : Option String :=
  String.fromUTF8? (ByteArray.mk (bytes.toList.map fun c => c.toNat.toUInt8).toArray)

/-- The text that some bytes make up; where they make none, each byte that is not ASCII shows as a
mark. -/
def ofBytes (bytes : String) : String :=
  (ofBytes? bytes).getD (bytes.map fun c => if c.toNat < 128 then c else '\ufffd')

end StubGen.Shell
