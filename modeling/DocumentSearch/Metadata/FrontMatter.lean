import DocumentSearch.Metadata.Block

/-!
# Front matter

A text can begin with a metadata block between two delimiter lines `---`, which
`parse_front_matter` of `metadata` takes off by the pattern `FRONT_MATTER`. The block reaches to the
first line break that a delimiter line follows; the last delimiter may stand at the end of the text.
-/

namespace DocumentSearch

open Text

/-- The text behind a line feed, or behind a carriage return and a line feed. -/
def afterLineBreak? : Text → Option Text
  | '\n' :: t => some t
  | '\r' :: '\n' :: t => some t
  | _ => none

/-- The text behind three hyphens. -/
def afterHyphens? : Text → Option Text
  | '-' :: '-' :: '-' :: t => some t
  | _ => none

/-- The body of the text, if a block ends here: behind a line break, a delimiter line, which the end
of the text may end. -/
def bodyHere? (t : Text) : Option Text :=
  match (afterLineBreak? t).bind afterHyphens? with
  | none => none
  | some [] => some []
  | some rest => afterLineBreak? rest

/-- The shortest block that ends at a delimiter, and the body behind it. -/
def splitBlock? : Text → Option (Text × Text)
  | [] => none
  | c :: t =>
    match bodyHere? (c :: t) with
    | some body => some ([], body)
    | none => (splitBlock? t).map fun (block, body) => (c :: block, body)

/-- The metadata block at the beginning of a text, and the body behind it: the match of
`FRONT_MATTER`. -/
def frontBlock? (t : Text) : Option (Text × Text) :=
  ((afterHyphens? t).bind afterLineBreak?).bind splitBlock?

/-- A text taken apart. A block that is no metadata leaves an error and no metadata, but it does not
belong to the body. -/
structure FrontMatter where
  metadata : Metadata
  body : Text
  error : Option MetadataError

/-- Takes a text apart into metadata and body (`parse_front_matter`). -/
def FrontMatter.ofText (t : Text) : FrontMatter :=
  match frontBlock? t with
  | none => ⟨Metadata.empty, t, none⟩
  | some (block, body) =>
    match readBlock block with
    | .ok metadata => ⟨metadata, body, none⟩
    | .error e => ⟨Metadata.empty, body, some e⟩

end DocumentSearch
