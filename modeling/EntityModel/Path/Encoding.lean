import EntityModel.Json.Basic
import EntityModel.Path.Basic

/-!
# Paths as trees

The tree of a path is an object with the list of its segments, each an object of one entry, `Key` or
`Index`. It may also be read from an array that holds this list alone.
-/

namespace EntityModel

def Segment.tree : Segment → Json
  | .key name => .object [("Key", .string name)]
  | .index position => .object [("Index", .int position.toNat)]

/-- Reads a segment. -/
def Segment.ofTree? : Json → Option Segment
  | .object [(tag, content)] =>
    match tag, content with
    | "Key", .string name => some (.key name)
    | "Index", .int n =>
      if 0 ≤ n ∧ n < UInt64.size then some (.index (UInt64.ofNat n.toNat)) else none
    | _, _ => none
  | _ => none

namespace Path

/-- The trees of the segments. -/
def segmentTrees (path : Path) : List Json := path.map Segment.tree

def tree (path : Path) : Json := .object [("segments", .array path.segmentTrees)]

/-- Reads a list of segments. -/
def ofSegmentTrees? : Json → Option Path
  | .array items => items.mapM Segment.ofTree?
  | _ => none

/-- Reads a path; other entries of the object are passed over. -/
def ofTree? : Json → Option Path
  | .object entries => (Assoc.get? entries "segments").bind ofSegmentTrees?
  | .array [segments] => ofSegmentTrees? segments
  | _ => none

end Path

end EntityModel
