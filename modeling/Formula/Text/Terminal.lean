/-!
# Text for terminals

A terminal takes some characters as orders: single controls, and sequences that begin with the
escape character. Complaints are set with such orders to bring out their parts. When a complaint
goes elsewhere than to a terminal, it is written without orders, be they its own or part of the
texts that it quotes; `plain` takes them out.

Sequences have five forms. After the escape character there is either a code of a few characters,
or the mark of one of the longer forms: a control sequence, which one letter ends, a device order
with a head of its own, and a string for the operating system or for the application.
-/

namespace Formula.Terminal

/-- Where in a sequence of orders a reader of text stands. -/
inductive Place where
  | text
  | escape
  /-- In a code, before its last character. -/
  | code
  | control
  /-- At the beginning of a device order, and in the parameters and the intermediate characters of
  its head. -/
  | device
  | deviceParameters
  | deviceIntermediates
  /-- In the body of a device order or in a string for the application. -/
  | string
  /-- In a string for the operating system. -/
  | systemString
deriving DecidableEq, Repr

/-- Whether the code point of a character is in a range. -/
def within (c : Char) (first last : Nat) : Bool := first ≤ c.toNat && c.toNat ≤ last

/-- Whether a character is an ASCII control that moves on in the text and so is shown as it is. -/
def isLayout (c : Char) : Bool := c = '\t' || c = '\n' || c = '\x0c' || c = '\r'

/-- Whether the encoding of a character holds the byte that ends strings. -/
def holdsTerminator (c : Char) : Bool := (String.utf8EncodeChar c).contains 0x9c

/-- Whether a character is shown at a place. Layout is shown in codes and control sequences too. -/
def isShown (place : Place) (c : Char) : Bool :=
  match place with
  | .text => isLayout c || (0x20 ≤ c.toNat && c.toNat ≠ 0x7f)
  | .escape | .code | .control => isLayout c
  | .device | .deviceParameters | .deviceIntermediates | .string | .systemString => false

/-- The place after the escape character and another one. -/
def afterEscape (c : Char) : Place :=
  if c = '[' then .control
  else if c = ']' then .systemString
  else if c = 'P' then .device
  else if c = 'X' || c = '^' || c = '_' then .string
  else if within c 0x20 0x2f then .code
  else if within c 0x30 0x7e then .text
  else .escape

/-- The place after a character in the head of a device order; `parameters` is where characters of
parameters lead. -/
def afterHead (place : Place) (parameters : Char → Place) (c : Char) : Place :=
  if within c 0x20 0x2f then .deviceIntermediates
  else if within c 0x30 0x3f then parameters c
  else if within c 0x40 0x7e then .string
  else place

/-- The place after a character that is not shown. The escape character begins a new sequence
everywhere, and two controls break off a sequence. -/
def next (place : Place) (c : Char) : Place :=
  if c = '\x1b' then .escape
  else if c = '\x18' || c = '\x1a' then .text
  else
    match place with
    | .text => .text
    | .escape => afterEscape c
    | .code => if within c 0x30 0x7e then .text else .code
    | .control => if within c 0x40 0x7e then .text else .control
    | .device => afterHead .device (fun _ => .deviceParameters) c
    | .deviceParameters =>
        afterHead .deviceParameters
          (fun c => if within c 0x3c 0x3f then .string else .deviceParameters) c
    | .deviceIntermediates => afterHead .deviceIntermediates (fun _ => .string) c
    | .string => if holdsTerminator c then .text else .string
    | .systemString => if c = '\x07' then .text else .systemString

/-- The characters that are shown. What follows a character that has been shown is `running` text,
even if that character was layout within a sequence: the sequence is gone on with only at the next
character which is not shown in text, unless a character beyond ASCII has ended it. -/
def shown (place : Place) (running : Bool) : List Char → List Char
  | [] => []
  | c :: rest =>
      if isShown (if running then .text else place) c then
        c :: shown (if c.toNat < 0x80 then place else .text) true rest
      else shown (next place c) false rest

/-- A text without orders to a terminal. -/
def plain (text : String) : String := .ofList (shown .text false text.toList)

/-- A text in a style, which ends with the text. -/
def styled (style text : String) : String := "\x1b[" ++ style ++ "m" ++ text ++ "\x1b[0m"

def bold (text : String) : String := styled "1" text

def yellow (text : String) : String := styled "33" text

end Formula.Terminal
