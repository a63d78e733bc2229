import ApprovedOps.Text.Blank
import ApprovedOps.Text.Case

/-! # Styles

Names of styles in markup: words for attributes, which may be negated, and for colours, and a link.
Names with the same effect have one canonical form.
-/

namespace ApprovedOps

/-- A style that a name describes. -/
structure Style where
  /-- Which attributes are switched on or off. -/
  attributes : List (Text × Bool) := []
  /-- The colour of the letters. -/
  colour : Option Text := none
  /-- The colour behind them. -/
  background : Option Text := none
  /-- Where a link leads. -/
  link : Option Text := none
  deriving DecidableEq, Repr

namespace Style

/-- The attributes in the order of canonical names. -/
def attributeNames : List Text :=
  [ "bold", "dim", "italic", "underline", "blink", "blink2", "reverse", "conceal", "strike",
    "underline2", "frame", "encircle", "overline" ]

/-- The short names of attributes. -/
def shortNames : List (Text × Text) :=
  [ ("d", "dim"), ("b", "bold"), ("i", "italic"), ("u", "underline"), ("r", "reverse"),
    ("c", "conceal"), ("s", "strike"), ("uu", "underline2"), ("o", "overline") ]

/-- The attribute of a name. -/
def attribute? (word : Text) : Option Text :=
  if attributeNames.contains word then some word else shortNames.lookup word

/-- The names of colours. -/
def colourNames : List String :=
  [ "default",
    "black", "red", "green", "yellow", "blue", "magenta", "cyan", "white", "bright_black",
    "bright_red", "bright_green", "bright_yellow", "bright_blue", "bright_magenta",
    "bright_cyan", "bright_white", "grey0", "gray0", "navy_blue", "dark_blue", "blue3", "blue1",
    "dark_green", "deep_sky_blue4", "dodger_blue3", "dodger_blue2", "green4", "spring_green4",
    "turquoise4", "deep_sky_blue3", "dodger_blue1", "green3", "spring_green3", "dark_cyan",
    "light_sea_green", "deep_sky_blue2", "deep_sky_blue1", "spring_green2", "cyan3",
    "dark_turquoise", "turquoise2", "green1", "spring_green1", "medium_spring_green", "cyan2",
    "cyan1", "dark_red", "deep_pink4", "purple4", "purple3", "blue_violet", "orange4", "grey37",
    "gray37", "medium_purple4", "slate_blue3", "royal_blue1", "chartreuse4", "dark_sea_green4",
    "pale_turquoise4", "steel_blue", "steel_blue3", "cornflower_blue", "chartreuse3",
    "cadet_blue", "sky_blue3", "steel_blue1", "pale_green3", "sea_green3", "aquamarine3",
    "medium_turquoise", "chartreuse2", "sea_green2", "sea_green1", "aquamarine1",
    "dark_slate_gray2", "dark_magenta", "dark_violet", "purple", "light_pink4", "plum4",
    "medium_purple3", "slate_blue1", "yellow4", "wheat4", "grey53", "gray53", "light_slate_grey",
    "light_slate_gray", "medium_purple", "light_slate_blue", "dark_olive_green3",
    "dark_sea_green", "light_sky_blue3", "sky_blue2", "dark_sea_green3", "dark_slate_gray3",
    "sky_blue1", "chartreuse1", "light_green", "pale_green1", "dark_slate_gray1", "red3",
    "medium_violet_red", "magenta3", "dark_orange3", "indian_red", "hot_pink3", "medium_orchid3",
    "medium_orchid", "medium_purple2", "dark_goldenrod", "light_salmon3", "rosy_brown", "grey63",
    "gray63", "medium_purple1", "gold3", "dark_khaki", "navajo_white3", "grey69", "gray69",
    "light_steel_blue3", "light_steel_blue", "yellow3", "dark_sea_green2", "light_cyan3",
    "light_sky_blue1", "green_yellow", "dark_olive_green2", "dark_sea_green1", "pale_turquoise1",
    "deep_pink3", "magenta2", "hot_pink2", "orchid", "medium_orchid1", "orange3", "light_pink3",
    "pink3", "plum3", "violet", "light_goldenrod3", "tan", "misty_rose3", "thistle3", "plum2",
    "khaki3", "light_goldenrod2", "light_yellow3", "grey84", "gray84", "light_steel_blue1",
    "yellow2", "dark_olive_green1", "honeydew2", "light_cyan1", "red1", "deep_pink2",
    "deep_pink1", "magenta1", "orange_red1", "indian_red1", "hot_pink", "dark_orange", "salmon1",
    "light_coral", "pale_violet_red1", "orchid2", "orchid1", "orange1", "sandy_brown",
    "light_salmon1", "light_pink1", "pink1", "plum1", "gold1", "navajo_white1", "misty_rose1",
    "thistle1", "yellow1", "light_goldenrod1", "khaki1", "wheat1", "cornsilk1", "grey100",
    "gray100", "grey3", "gray3", "grey7", "gray7", "grey11", "gray11", "grey15", "gray15",
    "grey19", "gray19", "grey23", "gray23", "grey27", "gray27", "grey30", "gray30", "grey35",
    "gray35", "grey39", "gray39", "grey42", "gray42", "grey46", "gray46", "grey50", "gray50",
    "grey54", "gray54", "grey58", "gray58", "grey62", "gray62", "grey66", "gray66", "grey70",
    "gray70", "grey74", "gray74", "grey78", "gray78", "grey82", "gray82", "grey85", "gray85",
    "grey89", "gray89", "grey93", "gray93" ]

/-- The number that at least one and at most three digits write, up to 255. -/
def byte? (t : Text) : Option Nat :=
  if t ≠ [] ∧ t.length ≤ 3 ∧ t.all CodePoint.isAsciiDigit then
    let n := t.foldl (fun n p => n * 10 + (p.hexValue?).getD 0) 0
    if n ≤ 255 then some n else none
  else
    none

/-- What stands between a beginning and a closing parenthesis. -/
def between? (start t : Text) : Option Text :=
  match Text.dropPrefix? t start with
  | some r => if r.getLast? = some (.char ')') then some r.dropLast else none
  | none => none

/-- Is it a colour, by name or by number? -/
def isColour (word : Text) : Bool :=
  word.toString?.any colourNames.contains
    || (match word with
      | .char '#' :: digits => digits.length = 6 && digits.all (·.hexValue?.isSome)
      | _ => false)
    || ((between? "color(" word).bind byte?).isSome
    || ((between? "rgb(" word).map (Text.splitOn (.char ','))).any fun parts =>
      parts.length = 3 && parts.all fun p => (byte? p).isSome

/-- Reads the words of a style. -/
def read (s : Style) : List Text → Option Style
  | [] => some s
  | [word] => readWord s word.lower
  | word :: next :: rest =>
    if word.lower = Text.ofString "on" then
      if isColour next.lower then read { s with background := some next.lower } rest else none
    else if word.lower = Text.ofString "not" then
      (attribute? next).bind fun a => read { s with attributes := (a, false) :: s.attributes } rest
    else if word.lower = Text.ofString "link" then
      read { s with link := some next } rest
    else
      (readWord s word.lower).bind fun s => read s (next :: rest)
where
  /-- Reads one word, which stands for an attribute or a colour. -/
  readWord (s : Style) (word : Text) : Option Style :=
    match attribute? word with
    | some a => some { s with attributes := (a, true) :: s.attributes }
    | none => if isColour word then some { s with colour := some word } else none

/-- The canonical name of a style. -/
def name (s : Style) : Text :=
  let attributes := attributeNames.filterMap fun a =>
    (s.attributes.lookup a).map fun on => if on then a else Text.ofString "not " ++ a
  let words := attributes ++ s.colour.toList
    ++ (s.background.map (Text.ofString "on " ++ ·)).toList
    ++ (s.link.map (Text.ofString "link " ++ ·)).toList
  if words = [] then Text.ofString "none" else Text.join [.char ' '] words

/-- The canonical form of a name. A name that describes no style is only trimmed and put into lower
    case. -/
def canonical (t : Text) : Text :=
  match read {} t.words with
  | some s => s.name
  | none => t.trim.lower

end Style

end ApprovedOps
