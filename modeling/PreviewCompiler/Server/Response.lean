import PreviewCompiler.Server.Basic
import PreviewCompiler.Server.HostPage

namespace PreviewCompiler

structure Response where
  status : Nat
  contentType : Option String := none
  cacheControl : Option String := none
  body : String
  deriving DecidableEq, Repr

namespace Response

def plainText : String := "text/plain; charset=utf-8"

def page : String := "text/html; charset=utf-8"

def plain (status : Nat) (body : String) : Response := { status, contentType := some plainText, body }

def missing : Response := { status := 404, body := "" }

end Response

namespace Server

def hexDigit? (b : UInt8) : Option UInt8 :=
  let n := b.toNat
  if 0x30 ≤ n ∧ n ≤ 0x39 then some (n - 0x30).toUInt8
  else if 0x41 ≤ n ∧ n ≤ 0x46 then some (n - 0x41 + 10).toUInt8
  else if 0x61 ≤ n ∧ n ≤ 0x66 then some (n - 0x61 + 10).toUInt8
  else none

/-- The bytes that an address stands for; a percent sign without two digits is meant as it is. -/
def percentDecode : List UInt8 → List UInt8
  | [] => []
  | b :: h :: l :: rest =>
    match hexDigit? h, hexDigit? l with
    | some hi, some lo =>
      if b = 0x25 then (hi * 16 + lo) :: percentDecode rest else b :: percentDecode (h :: l :: rest)
    | _, _ => b :: percentDecode (h :: l :: rest)
  | b :: rest => b :: percentDecode rest

def status (s : Server) : Json :=
  let version : Json := match s.session.document with
    | some d => .ofNat d.version
    | none => .null
  let entry : Json := match s.session.document with
    | some d => .string d.entry
    | none => .null
  let error : Json := match s.session.lastError with
    | some e => .object e.fields
    | none => .null
  .object
    [("version",version),("entry",entry),
     ("modules",.ofNat s.session.registry.modules.length),
     ("live_references",.ofNat s.session.registry.stats.live),
     ("error",error),
     ("runtime_errors",.array (s.session.runtimeErrors.map RuntimeError.toJson))]

/-- The document, or why there is none. -/
def respondDocument (s : Server) : Response :=
  match s.session.document with
  | some d =>
    { status := 200, contentType := some Response.page, cacheControl := some "no-cache", body := d.html }
  | none =>
    .plain 503 (match s.session.lastError with
      | some e => e.message
      | none => "No preview yet")

/-- The code behind a reference.  It never changes, so it may be kept. -/
def respondCode (rest : String) (s : Server) : Response :=
  match Text.Utf8.decode? (percentDecode rest.toUTF8.toList) with
  | none => .plain 400 "Invalid URL: Invalid UTF-8 in `path`"
  | some rest =>
    let reference := Reference.front ++ rest
    match s.session.registry.dereference reference with
    | some code =>
      { status := 200
        contentType := some "application/javascript"
        cacheControl := some "max-age=31536000, immutable"
        body := code }
    | none => .plain 404 ("// Unknown or released module reference: " ++ reference)

/-- Answer a request for an address; what stands behind a question mark does not matter. -/
def respond (address : String) (s : Server) : Response :=
  let path := String.ofList (address.toList.takeWhile fun c => c != '?' && c != '#')
  match path with
  | "/" => { status := 200, contentType := some Response.page, body := hostPage }
  | "/__preview" => s.respondDocument
  | "/__status" =>
    { status := 200, contentType := some "application/json", body := s.status.compact }
  | "/__ws" => .plain 400 "Connection header did not include 'upgrade'"
  | path =>
    let rest := path.toList.drop Reference.front.length
    if Text.hasFront Reference.front path && !rest.isEmpty then s.respondCode (String.ofList rest)
    else .missing

end Server

end PreviewCompiler
