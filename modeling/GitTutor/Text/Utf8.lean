import GitTutor.Text.Line

/-!
# Bytes as text

Text is stored as UTF-8. A strict reader refuses malformed bytes; a lenient one
puts the replacement character in place of every longest run of bytes that
starts a character and does not finish it.
-/

namespace GitTutor.Text

/-- The bytes of a text. -/
def encode (cs : List Char) : List UInt8 :=
  cs.flatMap String.utf8EncodeChar

/-- The text that bytes encode, if they are well-formed. -/
def decode? (bytes : List UInt8) : Option String :=
  String.fromUTF8? bytes.toByteArray

/-- The character that stands for malformed bytes. -/
def replacement : Char := Char.ofNat 0xFFFD

/-- Whether a byte continues a character. -/
def continues (b : UInt8) : Bool :=
  decide (0x80 ≤ b) && decide (b ≤ 0xBF)

/-- Whether a second byte may follow a given first byte of three or four. -/
def mayFollow (first second : UInt8) : Bool :=
  if first = 0xE0 then decide (0xA0 ≤ second) && decide (second ≤ 0xBF)
  else if first = 0xED then decide (0x80 ≤ second) && decide (second ≤ 0x9F)
  else if first = 0xF0 then decide (0x90 ≤ second) && decide (second ≤ 0xBF)
  else if first = 0xF4 then decide (0x80 ≤ second) && decide (second ≤ 0x8F)
  else continues second

/-- The six low bits of a byte. -/
def low (b : UInt8) : Nat := b.toNat % 64

/-- The characters that bytes encode, with replacements for what is malformed. -/
def decodeLenient : List UInt8 → List Char
  | [] => []
  | a :: rest =>
      if a < 0x80 then Char.ofNat a.toNat :: decodeLenient rest
      else if 0xC2 ≤ a ∧ a ≤ 0xDF then
        match rest with
        | [] => [replacement]
        | b :: rest' =>
            if continues b then
              Char.ofNat (a.toNat % 32 * 64 + low b) :: decodeLenient rest'
            else replacement :: decodeLenient (b :: rest')
      else if 0xE0 ≤ a ∧ a ≤ 0xEF then
        match rest with
        | [] => [replacement]
        | b :: rest' =>
            if mayFollow a b then
              match rest' with
              | [] => [replacement]
              | c :: rest'' =>
                  if continues c then
                    Char.ofNat ((a.toNat % 16 * 64 + low b) * 64 + low c) ::
                      decodeLenient rest''
                  else replacement :: decodeLenient (c :: rest'')
            else replacement :: decodeLenient (b :: rest')
      else if 0xF0 ≤ a ∧ a ≤ 0xF4 then
        match rest with
        | [] => [replacement]
        | b :: rest' =>
            if mayFollow a b then
              match rest' with
              | [] => [replacement]
              | c :: rest'' =>
                  if continues c then
                    match rest'' with
                    | [] => [replacement]
                    | d :: rest''' =>
                        if continues d then
                          Char.ofNat
                              (((a.toNat % 8 * 64 + low b) * 64 + low c) * 64 + low d) ::
                            decodeLenient rest'''
                        else replacement :: decodeLenient (d :: rest''')
                  else replacement :: decodeLenient (c :: rest'')
            else replacement :: decodeLenient (b :: rest')
      else replacement :: decodeLenient rest

/-- The lines of a byte stream, each with the line feed that ends it; the last line may end
at the end of the stream instead. -/
def streamLines (bytes : List UInt8) : List (List UInt8) :=
  segments (· == 10) bytes

end GitTutor.Text
