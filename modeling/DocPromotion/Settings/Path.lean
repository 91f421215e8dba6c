import DocPromotion.Text.Utf8

/-!
Ways to the values of a settings file.

A way names the keys and the places in lists that lead to a value, each after a slash.  In messages
a long way is shown without its middle, and names are left out as a whole where possible.
-/

namespace DocPromotion.Path

/-- The way to an entry of a map: slashes and tildes in its name are escaped. -/
def entry (path name : Text) : Text :=
  path ++ "/" ++ (Text.repair name).flatMap fun b =>
    if b == Text.byte '~' then ("~0" : Text)
    else if b == Text.byte '/' then ("~1" : Text)
    else [b]

/-- The way to an item of a list. -/
def item (path : Text) (index : Nat) : Text := path ++ "/" ++ Text.ofNat index

/-- The number of bytes up to which a way to a value is shown in full. -/
def fullLength : Nat := 100

/-- A text without the stray bytes at its end. -/
def dropStrayEnd (t : Text) : Text :=
  ((Text.pieces t).reverse.dropWhile (·.char?.isNone)).reverse.flatMap Text.Piece.bytes

/-- A text without the stray bytes at its start. -/
def dropStrayStart (t : Text) : Text :=
  ((Text.pieces t).dropWhile (·.char?.isNone)).flatMap Text.Piece.bytes

/-- The first part of a way, up to a slash if one is in it after its first byte. -/
def start (t : Text) : Text :=
  let cut := (t.reverse.dropWhile (· != Text.byte '/')).drop 1
  dropStrayEnd (if cut.isEmpty then t else cut.reverse)

/-- The last part of a way, from after a slash on if one is in it. -/
def stop (t : Text) : Text := dropStrayStart ((Text.cutAt (Text.byte '/') t).2.getD t)

/-- What stands for the part of a way that is left out: dots for a name, or for a part of one at
either end of it. -/
def gap (t : Text) : Text :=
  let slash := Text.byte '/'
  let first : Text := if t.head? == some slash then [] else "…"
  let last : Text := if t.getLast? == some slash then [] else "…"
  match t.count slash with
  | 0 => "…"
  | 1 => first ++ "/" ++ last
  | _ => first ++ "/…/" ++ last

/-- A way to a value as it is shown: of a long one the middle is left out. -/
def shown (path : Text) : Text :=
  if path.length ≤ fullLength then path
  else
    let half := fullLength / 2
    let first := start (path.take half)
    let last := stop (path.drop (path.length - half))
    let between := (path.drop first.length).take (path.length - first.length - last.length)
    first ++ gap between ++ last

end DocPromotion.Path
