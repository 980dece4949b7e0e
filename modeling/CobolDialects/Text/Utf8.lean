/-!
# UTF-8 over lists of bytes

A byte string splits into pieces: characters, and the shortest broken runs between them. Decoding,
decoding with replacement characters and quoting all read the same pieces, so they agree on
where a byte string stops being text.
-/

namespace CobolDialects

/-- A byte string: a path, the content of a file, an argument, the value of a variable. -/
abbrev Bytes := List UInt8

namespace Utf8

/-- The bytes of a text. -/
def encode (s : List Char) : Bytes := s.flatMap String.utf8EncodeChar

/-- How many bytes a text takes. -/
def size : List Char → Nat
  | [] => 0
  | c :: cs => c.utf8Size + size cs

/-- A well-formed character, or a run of bytes that begins no character. A run is `cut` when
the byte string ends before it could be told from a character. -/
inductive Piece where
  | char (c : Char)
  | broken (bytes : Bytes) (cut : Bool)
deriving DecidableEq, Repr

/-- A byte that continues a character. -/
def isTail (b : UInt8) : Bool := 0x80 ≤ b && b ≤ 0xBF

/-- How many bytes follow a first byte, and which second bytes it admits. -/
inductive Lead where
  | ascii
  | two
  | three (low high : UInt8)
  | four (low high : UInt8)
  | none

/-- Overlong forms, surrogates and values beyond the last code point are excluded by the second
byte. -/
def Lead.of (b : UInt8) : Lead :=
  if b < 0x80 then .ascii
  else if b < 0xC2 then .none
  else if b < 0xE0 then .two
  else if b = 0xE0 then .three 0xA0 0xBF
  else if b = 0xED then .three 0x80 0x9F
  else if b < 0xF0 then .three 0x80 0xBF
  else if b = 0xF0 then .four 0x90 0xBF
  else if b < 0xF4 then .four 0x80 0xBF
  else if b = 0xF4 then .four 0x80 0x8F
  else .none

def char2 (a b : UInt8) : Char := Char.ofNat ((a.toNat - 0xC0) * 64 + (b.toNat - 0x80))

def char3 (a b c : UInt8) : Char :=
  Char.ofNat (((a.toNat - 0xE0) * 64 + (b.toNat - 0x80)) * 64 + (c.toNat - 0x80))

def char4 (a b c d : UInt8) : Char :=
  Char.ofNat ((((a.toNat - 0xF0) * 64 + (b.toNat - 0x80)) * 64 + (c.toNat - 0x80)) * 64
    + (d.toNat - 0x80))

/-- The pieces of a byte string, from the front. A broken run stops before the first byte that
could not continue it. -/
def pieces : Bytes → List Piece
  | [] => []
  | a :: r =>
    match Lead.of a with
    | .ascii => .char (Char.ofNat a.toNat) :: pieces r
    | .none => .broken [a] false :: pieces r
    | .two =>
      match r with
      | [] => [.broken [a] true]
      | b :: s =>
        if isTail b then .char (char2 a b) :: pieces s else .broken [a] false :: pieces (b :: s)
    | .three low high =>
      match r with
      | [] => [.broken [a] true]
      | b :: s =>
        if low ≤ b && b ≤ high then
          match s with
          | [] => [.broken [a, b] true]
          | c :: t =>
            if isTail c then .char (char3 a b c) :: pieces t
            else .broken [a, b] false :: pieces (c :: t)
        else .broken [a] false :: pieces (b :: s)
    | .four low high =>
      match r with
      | [] => [.broken [a] true]
      | b :: s =>
        if low ≤ b && b ≤ high then
          match s with
          | [] => [.broken [a, b] true]
          | c :: t =>
            if isTail c then
              match t with
              | [] => [.broken [a, b, c] true]
              | d :: u =>
                if isTail d then .char (char4 a b c d) :: pieces u
                else .broken [a, b, c] false :: pieces (d :: u)
            else .broken [a, b] false :: pieces (c :: t)
        else .broken [a] false :: pieces (b :: s)

/-- Why and where a byte string is not text. -/
inductive Error where
  | invalid (length index : Nat)
  | incomplete (index : Nat)
deriving DecidableEq, Repr

def Error.message : Error → String
  | .invalid length index => s!"invalid utf-8 sequence of {length} bytes from index {index}"
  | .incomplete index => s!"incomplete utf-8 byte sequence from index {index}"

/-- Collects characters up to the first broken run, which starts at byte `index`. -/
def collect : Nat → List Piece → Except Error (List Char)
  | _, [] => .ok []
  | index, .char c :: rest => (collect (index + c.utf8Size) rest).map (c :: ·)
  | index, .broken bytes cut :: _ =>
    .error (if cut then .incomplete index else .invalid bytes.length index)

/-- The text of a byte string that is UTF-8 throughout. -/
def decode (bytes : Bytes) : Except Error (List Char) := collect 0 (pieces bytes)

def Piece.shown : Piece → Char
  | .char c => c
  | .broken _ _ => Char.ofNat 0xFFFD

/-- The text with each broken run shown as one replacement character. -/
def decodeLossy (bytes : Bytes) : List Char := (pieces bytes).map Piece.shown

end Utf8

/-- The bytes of a text. -/
def bytesOf (s : String) : Bytes := Utf8.encode s.toList

/-- The text of a byte string, if it is one. -/
def textOf? (bytes : Bytes) : Option String := (Utf8.decode bytes).toOption.map String.ofList

/-- A byte string as it is shown in messages. -/
def shownText (bytes : Bytes) : String := String.ofList (Utf8.decodeLossy bytes)

end CobolDialects
