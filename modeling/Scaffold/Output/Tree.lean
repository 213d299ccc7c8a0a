/-! # Trees of files

What a generator renders: contents by relative path. -/
namespace Scaffold.Output

/-- Paths with contents; no path occurs twice. -/
abbrev Tree := List (String × String)

namespace Tree

def get? (t : Tree) (path : String) : Option String := t.lookup path

/-- Put a file into a tree; a file of the same path is replaced. -/
def insert : Tree → String → String → Tree
  | [], path, content => [(path, content)]
  | (p, c) :: rest, path, content =>
    if p = path then (path, content) :: rest else (p, c) :: insert rest path content

/-- The files in the order of their paths. -/
def sorted (t : Tree) : Tree := t.mergeSort fun a b => decide (a.1 ≤ b.1)

end Tree

/-- The first line of a generated file says who wrote it. -/
def generatedHeader : String :=
  "Code generated by stalmer. DO NOT EDIT outside custom regions."

end Scaffold.Output
