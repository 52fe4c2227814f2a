import Haml.Dict
import Haml.Filter
import Haml.Markdown.Html
/-! The filters that are there without being registered. -/

namespace Haml.Filter

def markdown : Filter := fun text => .ok (String.ofList (Markdown.Html.write text.toList))

def builtin : Dict Filter :=
  Dict.ofList
    [("plain", plain), ("escaped", escaped), ("preserve", preserve), ("javascript", javascript),
      ("css", css), ("cdata", cdata), ("markdown", markdown),
      ("textile", unavailable "redcloth")]

end Haml.Filter
