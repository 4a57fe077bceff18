import PreviewCompiler.Text.Split

namespace PreviewCompiler.Server

/-- A number of an address: from 0 to 255, without zeros in front. -/
def isOctet (digits : List Char) : Bool :=
  !digits.isEmpty && digits.length ≤ 3 && digits.all Char.isDigit
    && (digits.length = 1 || digits.head? != some '0')
    && digits.foldl (fun n c => 10 * n + (c.toNat - '0'.toNat)) 0 ≤ 255

def isFourNumbers (text : List Char) : Bool :=
  let parts := Text.splitAll (· == '.') text
  parts.length = 4 && parts.all isOctet

def isHexDigit (c : Char) : Bool := c.isDigit || ('a' ≤ c && c ≤ 'f') || ('A' ≤ c && c ≤ 'F')

def isGroup (digits : List Char) : Bool :=
  !digits.isEmpty && digits.length ≤ 4 && digits.all isHexDigit

/-- How many groups a text stands for, if it is made of groups; the last two may be written as four numbers
at the end of an address. -/
def countGroups? (isEnd : Bool) (text : List Char) : Option Nat :=
  if text.isEmpty then some 0
  else
    let parts := Text.splitAll (· == ':') text
    let front := parts.dropLast
    let last := parts.getLastD []
    if !front.all isGroup then none
    else if isGroup last then some parts.length
    else if isEnd && isFourNumbers last then some (parts.length + 1)
    else none

/-- Eight groups; two colons stand for one group or more that are zero. -/
def isEightGroups (text : List Char) : Bool :=
  match Text.cutAt? [':',':'] text with
  | none => countGroups? true text == some 8
  | some (front,back) =>
    match countGroups? false front, countGroups? true back with
    | some m, some n => m + n ≤ 7
    | _, _ => false

/-- An address in brackets, maybe with the number of a zone. -/
def isBracketed (host : List Char) : Bool :=
  match host with
  | '[' :: rest =>
    rest.getLast? == some ']' &&
      (match Text.cutAt? ['%'] rest.dropLast with
        | none => isEightGroups rest.dropLast
        | some (address,zone) =>
          isEightGroups address && !zone.isEmpty && zone.all Char.isDigit
            && zone.foldl (fun n c => 10 * n + (c.toNat - '0'.toNat)) 0 < UInt32.size)
  | _ => false

def address? (host : String) (port : Nat) : Option String :=
  let host := if host = "localhost" then "127.0.0.1" else host
  if isFourNumbers host.toList || isBracketed host.toList then some (host ++ ":" ++ toString port) else none

end PreviewCompiler.Server
