import PreviewCompiler.Proofs.Data.Except
import PreviewCompiler.Proofs.Preview.Escaping

namespace PreviewCompiler.PreviewDocument

open Data Markup

/-- The text of a page with some texts in its elements. -/
def pageText (title relay imports styles id module : String) : String :=
  "<!DOCTYPE html>\n<html lang=\"en\">\n<head>\n<meta charset=\"utf-8\" />\n"
    ++ "<meta name=\"viewport\" content=\"width=device-width, initial-scale=1\" />\n"
    ++ "<title>" ++ title ++ "</title>\n"
    ++ "<script>" ++ relay ++ "</script>\n"
    ++ "<script type=\"importmap\">" ++ imports ++ "</script>\n"
    ++ "<style>" ++ styles ++ "</style>\n</head>\n<body>\n"
    ++ "<div id=\"" ++ id ++ "\"></div>\n"
    ++ "<script type=\"module\">" ++ module ++ "</script>\n"
    ++ "</body>\n</html>\n"

/-- The parts of such a page. -/
def pageParts (title relay imports styles id module : String) : List Part :=
  [.declaration "DOCTYPE html",.text "\n",.opening "html" [("lang","en")],.text "\n",
    .opening "head" [],.text "\n",
    .opening "meta" [("charset","utf-8")],.text "\n",
    .opening "meta" [("name","viewport"),("content","width=device-width, initial-scale=1")],.text "\n",
    .raw "title" [] title,.text "\n",
    .raw "script" [] relay,.text "\n",
    .raw "script" [("type","importmap")] imports,.text "\n",
    .raw "style" [] styles,.text "\n",
    .closing "head",.text "\n",
    .opening "body" [],.text "\n",
    .opening "div" [("id",id)],.closing "div",.text "\n",
    .raw "script" [("type","module")] module,.text "\n",
    .closing "body",.text "\n",.closing "html",.text "\n"]

theorem pageHtml_eq (map : ImportMap) (styles entry : String) {options : DocumentOptions} (version : Nat)
    (h : options.head = []) : pageHtml map styles entry options version =
      pageText (escapeMarkup options.title) (relayScript version) (escapeScript map.toJson.compact)
        ("\n" ++ escapeStyle styles ++ "\n") (escapeMarkup options.rootId)
        ("\n" ++ bootstrapModule entry options.rootId ++ "\n") := by
  have hstyle : "<style>\n" = "<style>" ++ "\n" := rfl
  have hstyle' : "\n</style>\n</head>\n<body>\n" = "\n" ++ "</style>\n</head>\n<body>\n" := rfl
  have hmodule : "<script type=\"module\">\n" = "<script type=\"module\">" ++ "\n" := rfl
  have hmodule' : "\n</script>\n" = "\n" ++ "</script>\n" := rfl
  unfold pageHtml pageText
  rw [h,hstyle,hstyle',hmodule,hmodule']
  simp only [List.map_nil,String.join_nil,String.append_empty,String.append_assoc]

/-- What comes before the title. -/
theorem run_head : run (.text []) ("<!DOCTYPE html>\n<html lang=\"en\">\n<head>\n<meta charset=\"utf-8\" />\n"
    ++ "<meta name=\"viewport\" content=\"width=device-width, initial-scale=1\" />\n" ++ "<title>").toList =
    some ([.declaration "DOCTYPE html",.text "\n",.opening "html" [("lang","en")],.text "\n",
      .opening "head" [],.text "\n",.opening "meta" [("charset","utf-8")],.text "\n",
      .opening "meta" [("name","viewport"),("content","width=device-width, initial-scale=1")],.text "\n"],
      .raw "title".toList [] [] []) := by
  decide +kernel

/-- What comes behind the name of the element that the component is shown in. -/
theorem run_div (id : String) : run (.value ⟨false,"div".toList,[]⟩ "id".toList id.toList) "\"></div>\n".toList =
    some ([.opening "div" [("id",id)],.closing "div"],.text ['\n']) := by
  have hstart : run (.value ⟨false,"div".toList,[]⟩ "id".toList id.toList) ['"','>'] =
    some ([.opening "div" [("id",String.ofList id.toList)]],.text []) := rfl
  have hrest : run (.text []) "</div>\n".toList = some ([.closing "div"],.text ['\n']) := by decide +kernel
  rw [String.ofList_toList] at hstart
  exact run_append hstart hrest

/-- A page is read as its parts, if its texts hold nothing that ends what they are in. -/
theorem read_pageText {title relay imports styles id module : String} (htitle : '<' ∉ title.toList)
    (hrelay : '<' ∉ relay.toList) (himports : '<' ∉ imports.toList) (hstyles : IsFree "style".toList styles.toList)
    (hid : '"' ∉ id.toList) (hmodule : '<' ∉ module.toList) :
    read (pageText title relay imports styles id module) =
      some (pageParts title relay imports styles id module) := by
  have hscript : run (.text ['\n']) "<script>".toList = some ([.text "\n"],.raw "script".toList [] [] []) := by
    decide +kernel
  have hmap : run (.text ['\n']) "<script type=\"importmap\">".toList =
    some ([.text "\n"],.raw "script".toList [("type","importmap")] [] []) := by decide +kernel
  have hstyle : run (.text ['\n']) "<style>".toList = some ([.text "\n"],.raw "style".toList [] [] []) := by
    decide +kernel
  have hbody : run (.text []) "\n</head>\n<body>\n".toList =
    some ([.text "\n",.closing "head",.text "\n",.opening "body" []],.text ['\n']) := by decide +kernel
  have hdiv : run (.text ['\n']) "<div id=\"".toList =
    some ([.text "\n"],.value ⟨false,"div".toList,[]⟩ "id".toList []) := by decide +kernel
  have hmod : run (.text ['\n']) "<script type=\"module\">".toList =
    some ([.text "\n"],.raw "script".toList [("type","module")] [] []) := by decide +kernel
  have hend : run (.text ['\n']) "</body>\n</html>\n".toList =
    some ([.text "\n",.closing "body",.text "\n",.closing "html"],.text ['\n']) := by decide +kernel
  have hpastTitle := Leads.append_plain "</title>\n" run_head (by decide +kernel) htitle rfl rfl
  have hpastRelay := (hpastTitle.append hscript).append_plain "</script>\n" (by decide +kernel) hrelay rfl rfl
  have hpastMap := (hpastRelay.append hmap).append_plain "</script>\n" (by decide +kernel) himports rfl rfl
  have hpastStyles := (hpastMap.append hstyle).append_raw "</style>\n</head>\n<body>\n" (by decide +kernel) hstyles
    (fun h => absurd h (by decide)) rfl hbody
  have hpastRoot := ((hpastStyles.append hdiv).append_value hid).append (run_div id)
  have hpastModule := ((hpastRoot.append hmod).append_plain "</script>\n" (by decide +kernel) hmodule rfl rfl).append hend
  have hpage : Leads (pageText title relay imports styles id module) _ (.text ['\n']) := hpastModule
  rw [hpage.read]
  rfl

/-- Nothing in the styles of a page ends them, with the line breaks around them. -/
theorem isFree_styles (styles : String) : IsFree "style".toList ("\n" ++ escapeStyle styles ++ "\n").toList := by
  have htext : ("\n" ++ escapeStyle styles ++ "\n").toList = '\n' :: (escapeStyleChars styles.toList ++ ['\n']) := by
    rw [String.toList_append,String.toList_append,escapeStyle,String.toList_ofList,String.toList_ofList]
    rfl
  rw [htext]
  exact ((isFree_escapeStyleChars styles.toList).snoc (by decide)).cons (by decide)

/-- A page has the elements that it was assembled from, if nothing is added to its head: the import map is read back
from a text without less-than signs, nothing in the styles ends them, the title and the name of the root are references
and characters that mean what was given, and no script has a less-than sign. -/
theorem read_of_assemble {map : ImportMap} {styles : String} {candidates : List String} {options : DocumentOptions}
    {version : Nat} {d : PreviewDocument} (h : assemble map styles candidates options version = .ok d)
    (hhead : options.head = []) :
    read d.html = some (pageParts (escapeMarkup options.title) (relayScript version) (escapeScript map.toJson.compact)
        ("\n" ++ escapeStyle styles ++ "\n") (escapeMarkup options.rootId)
        ("\n" ++ bootstrapModule d.entry options.rootId ++ "\n")) ∧
      '<' ∉ (escapeScript map.toJson.compact).toList ∧
      Json.parse (escapeScript map.toJson.compact) =
        .ok (.object [("imports",.object (map.imports.map fun e => (e.1,.string e.2)))]) ∧
      (∀ cs, cs <:+ ("\n" ++ escapeStyle styles ++ "\n").toList → (cs.take 7).map Char.toLower ≠ "</style".toList) ∧
      (∀ s ∈ [options.title,options.rootId],
        (∀ c ∈ ['<','>','"','\''], c ∉ (escapeMarkup s).toList) ∧ decode (escapeMarkup s) = s) ∧
      '<' ∉ (relayScript version).toList ∧
      '<' ∉ ("\n" ++ bootstrapModule d.entry options.rootId ++ "\n").toList := by
  obtain ⟨entry,-,hd⟩ := bind_eq_ok h
  obtain rfl := Except.ok.inj hd
  have htitle : '<' ∉ (escapeMarkup options.title).toList := not_mem_escapeMarkup options.title '<' (by decide)
  have hid : '"' ∉ (escapeMarkup options.rootId).toList := not_mem_escapeMarkup options.rootId '"' (by decide)
  have hmodule : '<' ∉ ("\n" ++ bootstrapModule entry options.rootId ++ "\n").toList :=
    not_mem_append (not_mem_append (by decide) (not_mem_bootstrapModule entry options.rootId)) (by decide)
  have hmap := not_mem_escapeScript map.toJson.compact
  have hrelay := not_mem_relayScript version
  refine ⟨?_,hmap,parse_escapeScript_toJson map,isFree_styles styles,fun s _ => ?_,hrelay,hmodule⟩
  · rw [pageHtml_eq map styles entry version hhead]
    exact read_pageText htitle hrelay hmap (isFree_styles styles) hid hmodule
  · exact ⟨not_mem_escapeMarkup s,decode_escapeMarkup s⟩

/-- Marks of markup in everything that a page is assembled from. -/
theorem read_of_assemble_of_marks : ∃ d,
    assemble ⟨[("/App.jsx","a<b")]⟩ "a</STYLE>" ["/App.jsx"] { title := "<b>", rootId := "a\"b" } 3 = .ok d ∧
      read d.html = some (pageParts "&lt;b&gt;" (relayScript 3)
        (escapeScript (ImportMap.toJson ⟨[("/App.jsx","a<b")]⟩).compact) "\na<\\/STYLE>\n" "a&quot;b"
        ("\n" ++ bootstrapModule "/App.jsx" "a\"b" ++ "\n")) := by
  have htitle : escapeMarkup "<b>" = "&lt;b&gt;" := by decide +kernel
  have hstyles : "\n" ++ escapeStyle "a</STYLE>" ++ "\n" = "\na<\\/STYLE>\n" := by decide +kernel
  have hid : escapeMarkup "a\"b" = "a&quot;b" := by decide +kernel
  have hassemble : assemble ⟨[("/App.jsx","a<b")]⟩ "a</STYLE>" ["/App.jsx"] { title := "<b>", rootId := "a\"b" } 3 =
      .ok ⟨pageHtml ⟨[("/App.jsx","a<b")]⟩ "a</STYLE>" "/App.jsx" { title := "<b>", rootId := "a\"b" } 3,
        "/App.jsx",3⟩ := rfl
  have hread := (read_of_assemble hassemble rfl).1
  rw [htitle,hstyles,hid] at hread
  exact ⟨_,hassemble,hread⟩

end PreviewCompiler.PreviewDocument
