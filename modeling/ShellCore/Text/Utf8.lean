namespace ShellCore.Text

/-!
# Reading UTF-8 with replacement

Every byte sequence reads as text: a well-formed sequence is its character, and
each maximal ill-formed part, the longest beginning of a well-formed sequence
that the bytes do not complete, or a single byte that begins none, is U+FFFD.
-/

/-- The character put in the place of an ill-formed part. -/
def replacement : Char :=
  Char.ofNat 0xFFFD

/-- A character whose first bytes have been read. -/
structure PendingChar where
  /-- The number of continuation bytes still missing. -/
  missing : Nat
  /-- The least next byte that continues the character. -/
  low : Nat
  /-- The greatest next byte that continues the character. -/
  high : Nat
  /-- The code point bits read so far. -/
  bits : Nat
  deriving Repr, DecidableEq

namespace PendingChar

/-- The character that a first byte begins, if it asks for continuation bytes. -/
def ofLead?
    (byte : UInt8) :
    Option PendingChar :=
  let value := byte.toNat
  if value < 0xC2 then none
  else if value < 0xE0 then some ⟨1, 0x80, 0xBF, value % 32⟩
  else if value = 0xE0 then some ⟨2, 0xA0, 0xBF, 0⟩
  else if value = 0xED then some ⟨2, 0x80, 0x9F, 13⟩
  else if value < 0xF0 then some ⟨2, 0x80, 0xBF, value % 16⟩
  else if value = 0xF0 then some ⟨3, 0x90, 0xBF, 0⟩
  else if value < 0xF4 then some ⟨3, 0x80, 0xBF, value % 8⟩
  else if value = 0xF4 then some ⟨3, 0x80, 0x8F, 4⟩
  else none

/-- Whether a byte continues the character. -/
def accepts
    (pending : PendingChar)
    (byte : UInt8) :
    Bool :=
  pending.low ≤ byte.toNat && byte.toNat ≤ pending.high

/-- The code point bits after one more continuation byte. -/
def pushBits
    (pending : PendingChar)
    (byte : UInt8) :
    Nat :=
  64 * pending.bits + byte.toNat % 64

end PendingChar

/-- Read bytes as text, after the first bytes of a character or between two. -/
def readUtf8 :
    Option PendingChar →
    List UInt8 →
    List Char
  | none, [] => []
  | some _, [] => [replacement]
  | none, byte :: rest =>
      if byte.toNat < 0x80 then
        Char.ofNat byte.toNat :: readUtf8 none rest
      else
        match PendingChar.ofLead? byte with
        | some pending => readUtf8 (some pending) rest
        | none => replacement :: readUtf8 none rest
  | some pending, byte :: rest =>
      if pending.accepts byte then
        if pending.missing ≤ 1 then
          Char.ofNat (pending.pushBits byte) :: readUtf8 none rest
        else
          readUtf8 (some ⟨pending.missing - 1, 0x80, 0xBF, pending.pushBits byte⟩) rest
      else if byte.toNat < 0x80 then
        replacement :: Char.ofNat byte.toNat :: readUtf8 none rest
      else
        match PendingChar.ofLead? byte with
        | some next => replacement :: readUtf8 (some next) rest
        | none => replacement :: replacement :: readUtf8 none rest

/-- The text that bytes write, ill-formed parts replaced. -/
def ofUtf8
    (bytes : List UInt8) :
    String :=
  String.ofList (readUtf8 none bytes)

/-- The bytes of a text. -/
def toUtf8
    (text : String) :
    List UInt8 :=
  text.toUTF8.toList

end ShellCore.Text
