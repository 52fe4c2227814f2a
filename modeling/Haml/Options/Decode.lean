import Haml.Datum
import Haml.Options
/-! Options as data: what each field may hold. Fields that are not known are passed over. -/

namespace Haml.Options

namespace Decode

def text : Datum → Except DataFault String
  | .text s => .ok s
  | _ => .error .malformed

def flag : Datum → Except DataFault Bool
  | .bool b => .ok b
  | _ => .error .malformed

def character : Datum → Except DataFault Char
  | .text s =>
      match s.toList with
      | [c] => .ok c
      | _ => .error .malformed
  | _ => .error .malformed

def texts : Datum → Except DataFault (List String)
  | .list items => items.mapM text
  | _ => .error .malformed

def format (d : Datum) : Except DataFault Format := do
  match Format.ofName? (← text d) with
  | some f => return f
  | none => throw .malformed

def unknownUnit (name : String) : String :=
  "unknown indent_unit `" ++ name ++ "`, expected \"auto\", \"tab\" or a number"

def unitOfName (name : String) : Except DataFault IndentUnit :=
  match name with
  | "auto" => .ok .auto
  | "tab" | "tabs" => .ok .tab
  | name => .error (.settings (unknownUnit name))

def unitOfWidth (width : Int) : Except DataFault IndentUnit :=
  if !Decimal.fitsUnsigned 64 width then .error .malformed
  else if width = 0 then .error (.settings "indent_unit must be at least 1 space")
  else .ok (.spaces width.toNat)

def unit : Datum → Except DataFault IndentUnit
  | .text name => unitOfName name
  | .int width => unitOfWidth width
  | _ => .error .malformed

def field (o : Options) (name : String) (d : Datum) : Except DataFault Options :=
  match name with
  | "template_id" => (fun v => { o with templateId := v }) <$> text d
  | "escape_html" => (fun v => { o with escapeHtml := v }) <$> flag d
  | "escape_attrs" => (fun v => { o with escapeAttributes := v }) <$> flag d
  | "suppress_eval" => (fun v => { o with suppressEval := v }) <$> flag d
  | "indent_unit" => (fun v => { o with indentUnit := v }) <$> unit d
  | "format" => (fun v => { o with format := v }) <$> format d
  | "attr_wrapper" => (fun v => { o with attributeWrapper := v }) <$> character d
  | "autoclose" => (fun v => { o with autoclose := v }) <$> texts d
  | _ => .ok o

def names : List String :=
  ["template_id", "escape_html", "escape_attrs", "suppress_eval", "indent_unit", "format",
    "attr_wrapper", "autoclose"]

def fields (o : Options) (entries : List (String × Datum)) : Except DataFault Options :=
  entries.foldlM (fun o (name, d) => field o name d) o

end Decode

def ofDatum (base : Options) : Datum → Except DataFault Options
  | .table entries => Decode.fields base entries
  | .list items => Decode.fields base (Decode.names.zip items)
  | _ => .error .malformed

end Haml.Options
