import HandlerScript.Markup.Build

/-! The language of markup, as a relation.

    Each relation says how a text divides into a piece of the grammar and what is left behind it. The
    alternatives are not ordered and nothing is said of how a reader finds them: a comment, a literal
    section or a declaration goes up to the first closing mark, a run of text is as long as it can be,
    and that is all. What a document derives is its root as written, an `Item`; a command tree can be
    read off it if each closing tag repeats the name of its element and no element has two attributes
    of one name. -/

namespace HandlerScript.Markup

/-! ### Pieces -/

def Spaces (s : List Char) : Prop := ∀ c ∈ s, isSpace c = true

/-- A letter, low line or dollar sign, and any number of name characters. -/
def IsName : List Char → Prop
  | [] => False
  | c :: cs => isNameStart c = true ∧ ∀ d ∈ cs, isNameChar d = true

instance : DecidablePred IsName
  | [] => isFalse id
  | c :: cs => decidable_of_iff (isNameStart c = true ∧ cs.all isNameChar = true)
      (and_congr_right fun _ => List.all_eq_true)

/-- A body between two marks, the second of which does not occur before its end. -/
structure SectionAt (opening closing : String) (cs body rest : List Char) : Prop where
  split : cs = opening.toList ++ (body ++ (closing.toList ++ rest))
  first : ∀ i < body.length, ¬ closing.toList <+: (body ++ (closing.toList ++ rest)).drop i

/-- Blanks, a name, an equals sign between blanks, and a value in quotes of either kind. -/
inductive AttributeAt (cs : List Char) : Attribute → List Char → Prop
  | intro {front name left right raw rest : List Char} {quote : Char}
      (split : cs = front ++ (name ++ (left ++ '=' :: (right ++ quote :: (raw ++ quote :: rest)))))
      (front_ne : front ≠ []) (front_spaces : Spaces front) (isName : IsName name)
      (left_spaces : Spaces left) (right_spaces : Spaces right)
      (quote_eq : quote = '"' ∨ quote = '\'') (unquoted : quote ∉ raw) :
      AttributeAt cs ⟨name, raw, ⟨cs.length, rest.length⟩⟩ rest

/-- Attributes one behind the other. -/
inductive AttributesAt : List Char → List Attribute → List Char → Prop
  | nil (cs : List Char) : AttributesAt cs [] cs
  | cons {cs mid rest : List Char} {a : Attribute} {as : List Attribute} :
      AttributeAt cs a mid → AttributesAt mid as rest → AttributesAt cs (a :: as) rest

inductive ClosingAt (cs : List Char) : ClosingTag → List Char → Prop
  | intro {name spaces rest : List Char} (split : cs = '<' :: '/' :: (name ++ (spaces ++ '>' :: rest)))
      (isName : IsName name) (blank : Spaces spaces) :
      ClosingAt cs ⟨name, ⟨cs.length, rest.length⟩⟩ rest

/-! ### Elements -/

mutual

/-- An element that is closed in its own tag, or has content and a closing tag. -/
inductive ElementAt : List Char → Item → List Char → Prop
  | closed {name mid spaces rest : List Char} {as : List Attribute} :
      IsName name → AttributesAt mid as (spaces ++ '/' :: '>' :: rest) → Spaces spaces →
      ElementAt ('<' :: (name ++ mid)) (.element ⟨name, as⟩ [] none) rest
  | opened {name mid spaces inner last rest : List Char} {as : List Attribute} {items : List Item}
      {closing : ClosingTag} :
      IsName name → AttributesAt mid as (spaces ++ '>' :: inner) → Spaces spaces →
      ContentAt inner items last → ClosingAt last closing rest →
      ElementAt ('<' :: (name ++ mid)) (.element ⟨name, as⟩ items (some closing)) rest

/-- Content: comments, literal sections, elements, and longest runs of text. -/
inductive ContentAt : List Char → List Item → List Char → Prop
  | nil (cs : List Char) : ContentAt cs [] cs
  | comment {cs body mid rest : List Char} {items : List Item} :
      SectionAt "<!--" "-->" cs body mid → ContentAt mid items rest → ContentAt cs items rest
  | literal {cs body mid rest : List Char} {items : List Item} :
      SectionAt "<![CDATA[" "]]>" cs body mid → ContentAt mid items rest →
      ContentAt cs (.literal body :: items) rest
  | element {cs mid rest : List Char} {item : Item} {items : List Item} :
      ElementAt cs item mid → ContentAt mid items rest → ContentAt cs (item :: items) rest
  | text {raw mid rest : List Char} {items : List Item} :
      raw ≠ [] → '<' ∉ raw → (∀ c ∈ mid.head?, c = '<') → ContentAt mid items rest →
      ContentAt (raw ++ mid) (.text raw :: items) rest

end

/-! ### Documents -/

/-- Blanks and comments. -/
inductive MiscAt : List Char → List Char → Prop
  | nil (cs : List Char) : MiscAt cs cs
  | spaces {s cs rest : List Char} : s ≠ [] → Spaces s → MiscAt cs rest → MiscAt (s ++ cs) rest
  | comment {cs body mid rest : List Char} :
      SectionAt "<!--" "-->" cs body mid → MiscAt mid rest → MiscAt cs rest

/-- A declaration, or nothing. -/
inductive DeclarationAt : List Char → List Char → Prop
  | none (cs : List Char) : DeclarationAt cs cs
  | some {cs body rest : List Char} : SectionAt "<?" "?>" cs body rest → DeclarationAt cs rest

/-- The source is a document with the given root. -/
inductive Derives (source : List Char) (root : Item) : Prop
  | intro {spaces front behind start rest : List Char} (split : source = spaces ++ front)
      (blank : Spaces spaces) (declaration : DeclarationAt front behind) (before : MiscAt behind start)
      (element : ElementAt start root rest) (after : MiscAt rest [])

/-! ### Trees -/

namespace Item

/-- Closing tags repeat the names of their elements, and no element has two attributes of one name. -/
inductive WellFormed : Item → Prop
  | text (raw : List Char) : WellFormed (.text raw)
  | literal (body : List Char) : WellFormed (.literal body)
  | element {tag : Tag} {items : List Item} {closing : Option ClosingTag} :
      (tag.attributes.map (·.name)).Nodup → (∀ c ∈ closing, c.name = tag.name) →
      (∀ item ∈ items, WellFormed item) → WellFormed (.element tag items closing)

/-- The characters that an item adds to the text around it: references are decoded in runs of text
    and literal sections stand as they are. -/
def chars : Item → List Char
  | .text raw => decode raw
  | .literal body => body
  | .element _ _ _ => []

end Item

/-- The entry of an attribute in the table of its node. -/
def Attribute.entry (a : Attribute) : String × String :=
  (String.ofList a.name, String.ofList (decode a.raw))

mutual

/-- The nodes that an item stands for: one for an element. -/
def Item.nodes : Item → List Node
  | .text _ => []
  | .literal _ => []
  | .element tag items _ =>
    [⟨String.ofList tag.name, Table.ofList (tag.attributes.map Attribute.entry),
      Text.nonBlank? (String.ofList (items.flatMap Item.chars)), allNodes items⟩]

/-- The nodes of items in their order. -/
def allNodes : List Item → List Node
  | [] => []
  | item :: items => item.nodes ++ allNodes items

end

end HandlerScript.Markup
