import PreviewCompiler.Compile.Error
import PreviewCompiler.Hash.Fingerprint
import PreviewCompiler.ImportMap
import PreviewCompiler.Text.Offset

namespace PreviewCompiler

structure DocumentOptions where
  title : String := "Preview"
  /-- Markup for the head of the page, which is taken as it is. -/
  head : List String := []
  rootId : String := "root"
  deriving DecidableEq, Repr

structure PreviewDocument where
  html : String
  /-- The module whose export is shown. -/
  entry : String
  version : Nat
  deriving DecidableEq, Repr

def defaultEntries : List String :=
  ["/App.jsx","/App.tsx","/App.js","/App.ts","/src/App.jsx","/src/App.tsx"]

namespace PreviewDocument

def escapeMarkupChar (c : Char) : List Char :=
  if c = '&' then "&amp;".toList
  else if c = '<' then "&lt;".toList
  else if c = '>' then "&gt;".toList
  else if c = '"' then "&quot;".toList
  else if c = '\'' then "&#39;".toList
  else [c]

def escapeMarkup (s : String) : String := String.ofList (s.toList.flatMap escapeMarkupChar)

/-- JSON for a script element: less-than signs stand in strings only and are escaped there. -/
def escapeScript (json : String) : String := Text.replace "<" "\\u003c" json

/-- Does a text start with the end of a style element? -/
def closesStyle (cs : List Char) : Bool := (cs.take 7).map Char.toLower == "</style".toList

/-- Put a backslash behind the less-than sign of every `</style`. -/
def escapeStyleChars : List Char → List Char
  | [] => []
  | c :: cs =>
    if closesStyle (c :: cs) then c :: '\\' :: escapeStyleChars cs else c :: escapeStyleChars cs

def escapeStyle (css : String) : String := String.ofList (escapeStyleChars css.toList)

/-- Escape the rest of some styles by offsets into its encoding, `written` being what has been written of them.  The
next `</style` is found as seven bytes, and the rest is cut in front of them, behind their slash and behind them; `none`
if one of these offsets is inside a character. -/
def scanStyle (written rest : String) : Option String :=
  match Text.offsetOf? (textBytes "</style") (textBytes rest) with
  | none => some (written ++ rest)
  | some i =>
    match Text.between? rest 0 i, Text.between? rest (i + 2) (i + 7),
      h : Text.between? rest (i + 7) rest.utf8ByteSize with
    | some front, some name, some back =>
      have _ : back.utf8ByteSize < rest.utf8ByteSize := Text.utf8ByteSize_lt_of_between? (Nat.succ_pos (i + 6)) h
      scanStyle (written ++ front ++ "<\\/" ++ name) back
    | _, _, _ => none
termination_by rest.utf8ByteSize

/-- What stands in the place of the version in the script that relays errors until it is known. -/
def versionMark : String := "__LIVEPREVIEW_VERSION__"

def relayTemplate : String :=
  "(function () \x7b
  var VERSION = " ++ versionMark ++ r##";
  function locate(stack) {
    if (!stack) return null;
    var m = /((?:https?:\/\/[^\s()]+)?\/[^\s():]+):(\d+):(\d+)/.exec(String(stack));
    return m ? { file: m[1], line: Number(m[2]), column: Number(m[3]) } : null;
  }
  function report(error, location) {
    var message = error && error.message ? String(error.message) : String(error);
    var stack = error && error.stack ? String(error.stack) : null;
    try {
      parent.postMessage({
        source: "livepreview",
        type: "runtime-error",
        version: VERSION,
        message: message,
        stack: stack,
        location: location || locate(stack)
      }, "*");
    } catch (_) {}
  }
  window.__livepreviewReport = report;
  window.addEventListener("error", function (event) {
    var location = event.filename
      ? { file: event.filename, line: event.lineno, column: event.colno }
      : null;
    report(event.error || event.message, location);
  });
  window.addEventListener("unhandledrejection", function (event) {
    report(event.reason, null);
  });
})();"##

/-- Relays uncaught errors to the host; `version` is that of the document. -/
def relayScript (version : Nat) : String := Text.replace versionMark (toString version) relayTemplate

def scriptString (s : String) : String := escapeScript (Json.quote s)

/-- What the module that shows the component does first. -/
def bootstrapHead : String :=
  r##"import React from "react";"## ++ "\n" ++ r##"import { createRoot } from "react-dom/client";

const report = window.__livepreviewReport || ((error) => console.error(error));

class ErrorBoundary extends React.Component {
  constructor(props) {
    super(props);
    this.state = { error: null };
  }
  static getDerivedStateFromError(error) {
    return { error };
  }
  componentDidCatch(error) {
    report(error, null);
  }
  render() {
    if (this.state.error) {
      const error = this.state.error;
      return React.createElement(
        "pre",
        { style: { color: "#b91c1c", padding: "16px", whiteSpace: "pre-wrap" } },
        String((error && error.message) || error)
      );
    }
    return this.props.children;
  }
}

const entry = "##

/-- What it does once it knows the entry module. -/
def bootstrapMiddle : String := r##";
try {
  const mod = await import(entry);
  const App = mod.default;
  if (App === undefined || App === null) {
    throw new Error(entry + " has no default export to render");
  }
  createRoot(document.getElementById("##

def bootstrapTail : String := r##")).render(
    React.createElement(ErrorBoundary, null, React.createElement(App))
  );
} catch (error) {
  report(error, null);
}"##

def entryMark : String := "__LIVEPREVIEW_ENTRY__"

def rootMark : String := "__LIVEPREVIEW_ROOT__"

/-- The module that shows a component, with marks in the places of its entry and of its root. -/
def bootstrapTemplate : String := bootstrapHead ++ entryMark ++ bootstrapMiddle ++ rootMark ++ bootstrapTail

/-- The module that shows the component of the entry module.  The root is put in last, so that an entry
which holds its mark is changed with it. -/
def bootstrapModule (entry rootId : String) : String :=
  Text.replace rootMark (scriptString rootId) (Text.replace entryMark (scriptString entry) bootstrapTemplate)

/-- The text of the page. -/
def pageHtml (map : ImportMap) (styles entry : String) (options : DocumentOptions) (version : Nat) : String :=
  "<!DOCTYPE html>\n<html lang=\"en\">\n<head>\n<meta charset=\"utf-8\" />\n"
    ++ "<meta name=\"viewport\" content=\"width=device-width, initial-scale=1\" />\n"
    ++ "<title>" ++ escapeMarkup options.title ++ "</title>\n"
    ++ "<script>" ++ relayScript version ++ "</script>\n"
    ++ "<script type=\"importmap\">" ++ escapeScript map.toJson.compact ++ "</script>\n"
    ++ String.join (options.head.map (· ++ "\n"))
    ++ "<style>\n" ++ escapeStyle styles ++ "\n</style>\n</head>\n<body>\n"
    ++ "<div id=\"" ++ escapeMarkup options.rootId ++ "\"></div>\n"
    ++ "<script type=\"module\">\n" ++ bootstrapModule entry options.rootId ++ "\n</script>\n"
    ++ "</body>\n</html>\n"

/-- The first candidate that the page can import. -/
def selectEntry (map : ImportMap) (candidates : List String) : Except CompileError String :=
  match candidates.find? map.contains with
  | some entry => .ok entry
  | none => .error (.entryMissing candidates)

/-- The page with the import map, the styles, a script that relays errors to the host, and a module that shows
what the entry exports.  What comes from the project is escaped such that it cannot end the element that it
stands in. -/
def assemble (map : ImportMap) (styles : String) (candidates : List String) (options : DocumentOptions)
    (version : Nat) : Except CompileError PreviewDocument := do
  let entry ← selectEntry map candidates
  return ⟨pageHtml map styles entry options version,entry,version⟩

end PreviewDocument

end PreviewCompiler
