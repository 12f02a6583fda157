import RespBus.Reply.Basic
import RespBus.Text.Lossy

/-!
# Descriptions of Replies

A reply in one line, for a reader of a log. Texts and runs of bytes are
shown as text, an error is announced as one, the null is `(nil)`, and the
elements of an array stand between brackets. The description is for people:
a simple string and a bulk string with the same bytes look alike.

## Main definitions

* `integerText`: An integer as a text.
* `Reply.describe`: A reply in one line.
-/

namespace RespBus

/-- An integer as a text, with a minus sign where it is negative. -/
def integerText (value : Int) : String :=
  if value < 0 then "-" ++ Decimal.toText value.natAbs else Decimal.toText value.natAbs

mutual

/-- A reply in one line. -/
def Reply.describe : Reply → String
  | .simple text => text.toTextLossy
  | .error text => "ERR " ++ text.toTextLossy
  | .integer value => integerText value
  | .null => "(nil)"
  | .bulk data => data.toTextLossy
  | .array [] => "[]"
  | .array (item :: items) => Reply.describeRest ("[" ++ item.describe) items ++ "]"

/-- The description so far, and that of the remaining elements after
    commas. -/
def Reply.describeRest (line : String) : List Reply → String
  | [] => line
  | item :: items => Reply.describeRest (line ++ ", " ++ item.describe) items

end

end RespBus
