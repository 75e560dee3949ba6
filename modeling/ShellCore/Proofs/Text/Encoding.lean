import ShellCore.Text.Bytes
import ShellCore.Text.Utf8

namespace ShellCore.Text

/-!
# Bytes of character sequences

The bytes of a text are those of its characters in order, so that columns count
bytes: the bytes from a boundary on are those of the characters from it on.
-/

/-- The bytes of a character sequence. -/
def encode
    (characters : List Char) :
    List UInt8 :=
  characters.flatMap String.utf8EncodeChar

@[simp] theorem encode_cons
    (character : Char)
    (rest : List Char) :
    encode (character :: rest) =
      String.utf8EncodeChar character ++ encode rest :=
  rfl

theorem encode_append
    (left right : List Char) :
    encode (left ++ right) = encode left ++ encode right :=
  List.flatMap_append

@[simp] theorem length_encode
    (characters : List Char) :
    (encode characters).length = byteLength characters := by
  induction characters with
  | nil => rfl
  | cons character rest inductionHypothesis =>
      simp [inductionHypothesis]

end ShellCore.Text
