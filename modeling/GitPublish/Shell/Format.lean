import GitPublish.Shell.Arithmetic
import GitPublish.Text

/-!
# Formatted output of a shell

`echo` writes its arguments with escapes for bytes. `printf` fills its arguments into a format,
which is used again as long as arguments are left.
-/
namespace GitPublish.Shell

def isOctal (c : Char) : Bool := '0' ≤ c && c ≤ '7'

def octalByte (cs : List Char) : UInt8 :=
  UInt8.ofNat (cs.foldl (fun n c => n * 8 + (c.toNat - 48)) 0)

/-- The bytes of the escape behind a backslash, and what follows. An escape that is unknown stands
for its backslash. -/
def readEscape (cs : List Char) : List UInt8 × List Char :=
  match cs with
  | '\\' :: rest => ([92], rest)
  | 'a' :: rest => ([7], rest)
  | 'b' :: rest => ([8], rest)
  | 'e' :: rest => ([27], rest)
  | 'f' :: rest => ([12], rest)
  | 'n' :: rest => ([10], rest)
  | 'r' :: rest => ([13], rest)
  | 't' :: rest => ([9], rest)
  | 'v' :: rest => ([11], rest)
  | _ =>
    let digits := (cs.take 3).takeWhile isOctal
    if digits = [] then ([92], cs) else ([octalByte digits], cs.drop digits.length)

/-- Text with escapes as bytes, and whether an escape ends all output. `fuel` bounds the number of
steps; the length of the text is enough. -/
def escaped (fuel : Nat) (cs : List Char) : List UInt8 × Bool :=
  match fuel, cs with
  | 0, _ => ([], false)
  | _ + 1, [] => ([], false)
  | _ + 1, '\\' :: 'c' :: _ => ([], true)
  | fuel + 1, '\\' :: '0' :: rest =>
    let digits := (rest.take 3).takeWhile isOctal
    let (bytes, ends) := escaped fuel (rest.drop digits.length)
    (octalByte digits :: bytes, ends)
  | fuel + 1, '\\' :: rest =>
    let (byte, rest) := readEscape rest
    let (bytes, ends) := escaped fuel rest
    (byte ++ bytes, ends)
  | fuel + 1, c :: rest =>
    let (bytes, ends) := escaped fuel rest
    (Text.encode [c] ++ bytes, ends)

def echo (args : List String) : List UInt8 :=
  let (args, newline) := match args with
    | "-n" :: rest => (rest, false)
    | args => (args, true)
  let cs := (" ".intercalate args).toList
  let (bytes, ends) := escaped cs.length cs
  if newline && !ends then bytes ++ [10] else bytes

structure Directive where
  flags : List Char
  width : Nat
  precision : Option Nat
  kind : Char
  deriving DecidableEq, Repr

/-- What `printf` has written, and the arguments that are left. -/
structure Printing where
  bytes : List UInt8 := []
  args : List String
  complaints : List String := []
  ended : Bool := false
  deriving Repr

namespace Directive

/-- The directive behind a percent sign, and what follows. -/
def read (cs : List Char) : Directive × List Char :=
  let isFlag (c : Char) : Bool := "#-+ 0".toList.contains c
  let number (cs : List Char) : Nat := (Arithmetic.digitsValue 10 cs).getD 0
  let flags := cs.takeWhile isFlag
  let cs := cs.dropWhile isFlag
  let width := number (cs.takeWhile Char.isDigit)
  let cs := cs.dropWhile Char.isDigit
  let (precision, cs) := match cs with
    | '.' :: rest => (some (number (rest.takeWhile Char.isDigit)), rest.dropWhile Char.isDigit)
    | _ => (none, cs)
  ({ flags, width, precision, kind := cs.head?.getD '\x00' }, cs.tail)

/-- Bytes in the width of a directive. -/
def pad (d : Directive) (zeros : Bool) (bytes : List UInt8) : List UInt8 :=
  let missing := d.width - bytes.length
  if d.flags.contains '-' then bytes ++ List.replicate missing 32
  else if zeros then
    match bytes with
    | 45 :: rest => 45 :: List.replicate missing 48 ++ rest
    | _ => List.replicate missing 48 ++ bytes
  else List.replicate missing 32 ++ bytes

/-- The number that starts an argument, and a complaint if the argument is more or less than a
number. A quote stands before the character whose number is meant. -/
def numberOf (arg : String) : Int × Option String :=
  match arg.toList with
  | [] => (0, none)
  | '"' :: c :: _ | '\'' :: c :: _ => (c.toNat, none)
  | cs =>
    let starts := (List.range (cs.length + 1)).reverse.filterMap fun n =>
      (Arithmetic.number? (cs.take n)).map fun value => (value.toInt, n)
    match starts with
    | (value, n) :: _ =>
      (value, if n = cs.length then none else some (arg ++ ": not completely converted"))
    | [] => (0, some (arg ++ ": expected numeric value"))

/-- Digits in the precision of a directive. -/
def digits (d : Directive) (text : String) : String :=
  let missing := d.precision.getD 0 - text.length
  String.ofList (List.replicate missing '0') ++ text

def numberText (d : Directive) (n : Int) : String :=
  let word : Nat := (n % (Nat.pow 2 64 : Nat)).toNat
  let inBase (base : Nat) : String := d.digits (String.ofList (Nat.toDigits base word))
  let alternative := d.flags.contains '#'
  match d.kind with
  | 'o' => (if alternative then "0" else "") ++ inBase 8
  | 'x' => (if alternative then "0x" else "") ++ inBase 16
  | 'X' => (if alternative then "0X" else "") ++ (inBase 16).toUpper
  | 'u' => inBase 10
  | _ =>
    let sign := if n < 0 then "-" else if d.flags.contains '+' then "+"
      else if d.flags.contains ' ' then " " else ""
    sign ++ d.digits (toString n.natAbs)

/-- Writes the next argument as a directive says. -/
def print (d : Directive) (p : Printing) : Printing :=
  let arg := p.args.head?.getD ""
  let p := { p with args := p.args.tail }
  let shortened (bytes : List UInt8) : List UInt8 :=
    match d.precision with
    | some n => bytes.take n
    | none => bytes
  match d.kind with
  | 's' => { p with bytes := p.bytes ++ d.pad false (shortened (Text.encode arg.toList)) }
  | 'c' =>
    let c := arg.toList.head?.getD '\x00'
    { p with bytes := p.bytes ++ d.pad false (Text.encode [c]) }
  | 'b' =>
    let (bytes, ends) := escaped arg.length arg.toList
    { p with bytes := p.bytes ++ d.pad false (shortened bytes), ended := ends }
  | _ =>
    let (n, complaint) := numberOf arg
    let zeros := d.flags.contains '0' && d.precision.isNone
    let bytes := d.pad zeros (Text.encode (d.numberText n).toList)
    { p with bytes := p.bytes ++ bytes, complaints := p.complaints ++ complaint.toList }

end Directive

/-- Uses a format once. `fuel` bounds the number of steps; more than the length of the format is
enough. -/
def printFormat (fuel : Nat) (format : List Char) (p : Printing) : Printing :=
  match fuel, format with
  | 0, _ => p
  | _ + 1, [] => p
  | fuel + 1, '\\' :: rest =>
    let (bytes, rest) := readEscape rest
    printFormat fuel rest { p with bytes := p.bytes ++ bytes }
  | fuel + 1, '%' :: '%' :: rest => printFormat fuel rest { p with bytes := p.bytes ++ [37] }
  | fuel + 1, '%' :: rest =>
    let (d, behind) := Directive.read rest
    if "sbcdiouxX".toList.contains d.kind then
      let p := d.print p
      if p.ended then p else printFormat fuel behind p
    else
      let directive := '%' :: rest.take (rest.length - behind.length)
      { p with
        ended := true,
        complaints := p.complaints ++
          [if d.kind = '\x00' then "missing format character"
            else String.ofList directive ++ ": invalid directive"] }
  | fuel + 1, c :: rest => printFormat fuel rest { p with bytes := p.bytes ++ Text.encode [c] }

/-- Uses a format as long as it takes up arguments and some are left. `fuel` bounds the number of
times; more than the number of arguments is enough. -/
def printAll (fuel : Nat) (format : List Char) (p : Printing) : Printing :=
  match fuel with
  | 0 => p
  | fuel + 1 =>
    let q := printFormat (format.length + 1) format p
    if q.ended || q.args = [] || q.args.length = p.args.length then q
    else printAll fuel format q

def printf (format : String) (args : List String) : Printing :=
  printAll (args.length + 1) format.toList { args }

end GitPublish.Shell
