import PodAttach.Text.Utf8

/-!
# Names of links

The kernel takes link names of up to fifteen bytes.  The host end of a pair
is named after the identifier of its virtual interface; the other end has a
name of its own until it is moved into the container.
-/

namespace PodAttach.Net.LinkName

/-- The most bytes of a link name. -/
def maxSize : Nat := 15

/-- What the names of host links start with. -/
def hostStart : String := "tap"

/-- How many bytes of an identifier are kept: one byte of a name stays free. -/
def room : Nat := maxSize - hostStart.length - 1

/-- As much of an identifier as there is room for, cut off at the end of a character. -/
def front? (vifId : String) : Option String :=
  let bytes := Utf8.encode vifId
  (Utf8.lastBoundary? bytes (min bytes.length room)).bind fun stop =>
    Utf8.decode? (bytes.take stop)

/-- The name of the host end for a virtual interface. -/
def host (vifId : String) : String :=
  hostStart ++ (front? vifId).getD ""

/-- The name of the other end before it is moved: the host name and one letter. -/
def peer (hostName : String) : String :=
  String.ofList (hostName.toList.take (maxSize - 1)) ++ "p"

end PodAttach.Net.LinkName
