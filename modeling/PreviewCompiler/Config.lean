import PreviewCompiler.Json.Decoder
import PreviewCompiler.Preview.Document
import PreviewCompiler.Styles

namespace PreviewCompiler

open Json

structure ServerConfig where
  host : String := "127.0.0.1"
  port : Nat := 5173
  deriving DecidableEq, Repr

structure ProjectConfig where
  /-- Where the entry module is looked for, in this order. -/
  entry : List String := defaultEntries
  jsx : TransformOptions := {}
  packages : Redirects := {}
  styles : StyleOptions := {}
  document : DocumentOptions := {}
  server : ServerConfig := {}
  deriving DecidableEq, Repr

namespace ProjectConfig

def fileName : String := "livepreview.json"

/-- The settings with canonical paths; without any entry the default ones count. -/
def normalized (c : ProjectConfig) : ProjectConfig :=
  { c with entry := if c.entry.isEmpty then defaultEntries else c.entry.map Path.normalize }

def readRuntime : Read Script.MarkupRuntime :=
  Read.enumeration [("classic",.classic),("automatic",.automatic)]

def readTransform : Read TransformOptions :=
  Read.record "TransformOptions"
    [Read.field "runtime" readRuntime fun v c => { c with runtime := v },
     Read.field "importSource" Read.string fun v c => { c with importSource := v },
     Read.field "minify" Read.boolean fun v c => { c with minify := v }]
    {}

def readPackages : Read Redirects :=
  Read.record "PackageRedirects"
    [Read.field "cdn" Read.string fun v c => { c with cdn := v },
     Read.field "defaultVersion" Read.string fun v c => { c with defaultVersion := v },
     Read.field "pins" (Read.map Read.string) fun v c => { c with pins := Data.OrderedMap.ofList v },
     Read.field "external" (Read.list Read.string) fun v c => { c with external := v }]
    {}

def readStyles : Read StyleOptions :=
  Read.record "StyleOptions"
    [Read.field "minify" Read.boolean fun v c => { c with minify := v },
     Read.field "autoprefixer" Read.boolean fun v c => { c with autoprefixer := v }]
    {}

def readDocument : Read DocumentOptions :=
  Read.record "DocumentOptions"
    [Read.field "title" Read.string fun v c => { c with title := v },
     Read.field "head" (Read.list Read.string) fun v c => { c with head := v },
     Read.field "rootId" Read.string fun v c => { c with rootId := v }]
    {}

def readServer : Read ServerConfig :=
  Read.record "ServerConfig"
    [Read.field "host" Read.string fun v c => { c with host := v },
     Read.field "port" (Read.naturalBelow UInt16.size "u16") fun v c => { c with port := v }]
    {}

def read : Read ProjectConfig :=
  Read.record "ProjectConfig"
    [Read.field "entry" (Read.list Read.string) fun v c => { c with entry := v },
     Read.field "jsx" readTransform fun v c => { c with jsx := v },
     Read.field "packages" readPackages fun v c => { c with packages := v },
     Read.field "styles" readStyles fun v c => { c with styles := v },
     Read.field "document" readDocument fun v c => { c with document := v },
     Read.field "server" readServer fun v c => { c with server := v }]
    {}

def parse (s : String) : Except Fault ProjectConfig := Read.runAll read s

end ProjectConfig

end PreviewCompiler
