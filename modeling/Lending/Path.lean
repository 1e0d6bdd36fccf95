/-! Paths of files. -/
namespace Lending.Path

/-- The name of a file: what comes after the last slash. -/
def fileName (path : String) : List Char :=
  (path.toList.reverse.takeWhile (· != '/')).reverse

/-- What comes after the last point of a file's name. A point at the start of the name does not
count. -/
def extension? (path : String) : Option String :=
  let name := fileName path
  let last := (name.reverse.takeWhile (· != '.')).reverse
  if name.length ≤ last.length + 1 || name = ['.', '.'] then none else some (String.ofList last)

end Lending.Path
