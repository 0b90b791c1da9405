import GmMiner.Lib.Base64
import GmMiner.Text

/-!
Texts of bytes: hexadecimal digits and `STANDARD` base 64.
-/

namespace GmMiner

open GmMiner.Lib

def hexDigit (c : Char) : Option Nat :=
  if '0' ≤ c ∧ c ≤ '9' then some (c.toNat - 48)
  else if 'a' ≤ c ∧ c ≤ 'f' then some (c.toNat - 87)
  else if 'A' ≤ c ∧ c ≤ 'F' then some (c.toNat - 55)
  else none

/-- `hex::decode`. -/
def hexDecode : List Char → Option Bytes
  | [] => some []
  | [_] => none
  | high :: low :: rest => do
      let high ← hexDigit high
      let low ← hexDigit low
      let bytes ← hexDecode rest
      return .ofNat (high * 16 + low) :: bytes

/-- `try_into` an array of so many bytes. -/
def tryInto (n : Nat) (bytes : Bytes) : Option (Vector UInt8 n) :=
  if size : bytes.length = n then some ⟨bytes.toArray, by simpa using size⟩ else none

theorem toList_of_tryInto {n : Nat} {bytes : Bytes} {array : Vector UInt8 n}
    (read : tryInto n bytes = some array) : array.toList = bytes := by
  unfold tryInto at read
  split at read
  · cases read
    rfl
  · cases read

/-! ### `STANDARD` -/

def sextetOf (c : Char) : Option Nat :=
  if 'A' ≤ c ∧ c ≤ 'Z' then some (c.toNat - 65)
  else if 'a' ≤ c ∧ c ≤ 'z' then some (c.toNat - 71)
  else if '0' ≤ c ∧ c ≤ '9' then some (c.toNat + 4)
  else if c = '+' then some 62
  else if c = '/' then some 63
  else none

def sextetLetter (n : Nat) : Char :=
  if n < 26 then Char.ofNat (n + 65)
  else if n < 52 then Char.ofNat (n + 71)
  else if n < 62 then Char.ofNat (n - 4)
  else if n = 62 then '+'
  else '/'

theorem sextetOf_sextetLetter : ∀ n < 64, sextetOf (sextetLetter n) = some n := by
  decide

def encodeText (bytes : Bytes) : String :=
  String.ofList (Base64.encodePadded sextetLetter '=' bytes)

def decodeText (text : String) : Option Bytes := Base64.decodePadded sextetOf '=' text.toList

@[simp] theorem decodeText_encodeText (bytes : Bytes) :
    decodeText (encodeText bytes) = some bytes := by
  rw [decodeText, encodeText, String.toList_ofList]
  exact Base64.decodePadded_encodePadded sextetOf_sextetLetter (by decide) bytes

end GmMiner
