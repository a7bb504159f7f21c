import ConnectionBroker.Text.Digits
import ConnectionBroker.Text.Utf8

/-! # Percent-encoding

A `%` and two hexadecimal digits stand for one byte. A `%` that no two hexadecimal digits follow
stands for itself.
-/

namespace ConnectionBroker.Text.Percent

/-! ## Decoding -/

/-- The bytes that a percent-encoded text stands for; what is not encoded stands for its own
UTF-8 bytes. -/
def decode : List Char → List UInt8
  | [] => []
  | '%' :: a :: b :: rest =>
      match hexDigitValue? a, hexDigitValue? b with
      | some high, some low => UInt8.ofNat (high * 16 + low) :: decode rest
      | _, _ => 0x25 :: decode (a :: b :: rest)
  | c :: rest => Utf8.encodeChar c ++ decode rest

/-- The text behind a percent-encoded one, if its bytes are UTF-8. -/
def decodeText? (raw : List Char) : Option String :=
  (Utf8.decode? (decode raw)).map String.ofList

/-- The text behind a percent-encoded one, with the replacement character for what is not UTF-8. -/
def decodeTextLenient (raw : List Char) : String :=
  String.ofList (Utf8.decodeLenient (decode raw))

/-! ## Encoding -/

/-- Characters that no component of a URI gives a meaning of its own. -/
def isUnreserved (c : Char) : Bool :=
  c.isAlphanum || c == '-' || c == '_' || c == '~' || c == '.'

def encodeByte (b : UInt8) : List Char :=
  ['%', upperHexDigit (b.toNat / 16), upperHexDigit (b.toNat % 16)]

/-- A character as it is if `keep` holds of it, and else its bytes, each percent-encoded. -/
def encodeChar (keep : Char → Bool) (c : Char) : List Char :=
  if keep c then [c] else (Utf8.encodeChar c).flatMap encodeByte

/-- Percent-encodes every character of which `keep` does not hold. -/
def encode (keep : Char → Bool) (text : List Char) : List Char :=
  text.flatMap (encodeChar keep)

@[simp] theorem encode_nil (keep : Char → Bool) : encode keep [] = [] := rfl

@[simp] theorem encode_cons (keep : Char → Bool) (c : Char) (text : List Char) :
    encode keep (c :: text) = encodeChar keep c ++ encode keep text := rfl

end ConnectionBroker.Text.Percent
