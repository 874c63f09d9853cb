/-
Names of styles in marks. A style is spelt by words: attributes, each switched off by the word `not` before it; a colour; the
word `on` and the colour behind the text; the word `link` and an address. Two spellings of one style are one name, and a name
that spells no style stands for itself.
-/
import ContractGraph.Text.DecimalDigit
import ContractGraph.Text.LowerCase
import ContractGraph.Text.Blank

namespace ContractGraph.Markup

/-- what a style changes: attributes that are switched on or off, newest first, two colours, and an address -/
structure Style where
  switches : List (String × Bool)
  color : Option String
  ground : Option String
  link : Option String
deriving DecidableEq, Repr

namespace Style

/-- a style that changes nothing -/
def plain : Style := ⟨[], none, none, none⟩

/-! ## Attributes and colours -/

/-- the attributes in their order, each with its shorter names -/
def attributes : List (String × List String) :=
  [("bold", ["b"]), ("dim", ["d"]), ("italic", ["i"]), ("underline", ["u"]), ("blink", []), ("blink2", []),
    ("reverse", ["r"]), ("conceal", ["c"]), ("strike", ["s"]), ("underline2", ["uu"]), ("frame", []), ("encircle", []),
    ("overline", ["o"])]

/-- the attribute of a name -/
def attribute? (name : String) : Option String :=
  (attributes.find? fun a => a.1 = name || a.2.contains name).map Prod.fst

/-- the names of colours, with blanks between -/
def colorNames : List String :=
  [
    "aquamarine1 aquamarine3 black blue blue1 blue3 blue_violet bright_black bright_blue bright_cyan bright_green",
    "bright_magenta bright_red bright_white bright_yellow cadet_blue chartreuse1 chartreuse2 chartreuse3",
    "chartreuse4 cornflower_blue cornsilk1 cyan cyan1 cyan2 cyan3 dark_blue dark_cyan dark_goldenrod dark_green",
    "dark_khaki dark_magenta dark_olive_green1 dark_olive_green2 dark_olive_green3 dark_orange dark_orange3",
    "dark_red dark_sea_green dark_sea_green1 dark_sea_green2 dark_sea_green3 dark_sea_green4 dark_slate_gray1",
    "dark_slate_gray2 dark_slate_gray3 dark_turquoise dark_violet deep_pink1 deep_pink2 deep_pink3 deep_pink4",
    "deep_sky_blue1 deep_sky_blue2 deep_sky_blue3 deep_sky_blue4 dodger_blue1 dodger_blue2 dodger_blue3 gold1",
    "gold3 gray0 gray100 gray11 gray15 gray19 gray23 gray27 gray3 gray30 gray35 gray37 gray39 gray42 gray46",
    "gray50 gray53 gray54 gray58 gray62 gray63 gray66 gray69 gray7 gray70 gray74 gray78 gray82 gray84 gray85",
    "gray89 gray93 green green1 green3 green4 green_yellow grey0 grey100 grey11 grey15 grey19 grey23 grey27 grey3",
    "grey30 grey35 grey37 grey39 grey42 grey46 grey50 grey53 grey54 grey58 grey62 grey63 grey66 grey69 grey7",
    "grey70 grey74 grey78 grey82 grey84 grey85 grey89 grey93 honeydew2 hot_pink hot_pink2 hot_pink3 indian_red",
    "indian_red1 khaki1 khaki3 light_coral light_cyan1 light_cyan3 light_goldenrod1 light_goldenrod2",
    "light_goldenrod3 light_green light_pink1 light_pink3 light_pink4 light_salmon1 light_salmon3 light_sea_green",
    "light_sky_blue1 light_sky_blue3 light_slate_blue light_slate_gray light_slate_grey light_steel_blue",
    "light_steel_blue1 light_steel_blue3 light_yellow3 magenta magenta1 magenta2 magenta3 medium_orchid",
    "medium_orchid1 medium_orchid3 medium_purple medium_purple1 medium_purple2 medium_purple3 medium_purple4",
    "medium_spring_green medium_turquoise medium_violet_red misty_rose1 misty_rose3 navajo_white1 navajo_white3",
    "navy_blue orange1 orange3 orange4 orange_red1 orchid orchid1 orchid2 pale_green1 pale_green3 pale_turquoise1",
    "pale_turquoise4 pale_violet_red1 pink1 pink3 plum1 plum2 plum3 plum4 purple purple3 purple4 red red1 red3",
    "rosy_brown royal_blue1 salmon1 sandy_brown sea_green1 sea_green2 sea_green3 sky_blue1 sky_blue2 sky_blue3",
    "slate_blue1 slate_blue3 spring_green1 spring_green2 spring_green3 spring_green4 steel_blue steel_blue1",
    "steel_blue3 tan thistle1 thistle3 turquoise2 turquoise4 violet wheat1 wheat4 white yellow yellow1 yellow2",
    "yellow3 yellow4"]

/-- a number of at most three digits that is below 256 -/
def isByte (cs : List Char) : Bool := cs.length ≤ 3 && cs.all Char.isDigit && (Text.natural? cs).any (· < 256)

/-- what stands between a word with an opening bracket and the closing bracket at the end -/
def inside? (opening : String) (cs : List Char) : Option (List Char) :=
  if opening.toList.isPrefixOf cs && cs.getLast? = some ')' then some (cs.drop opening.length).dropLast else none

/-- a hexadecimal digit; its letter is a small one -/
def isHexDigit (c : Char) : Bool := c.isDigit || ('a' ≤ c && c ≤ 'f')

/-- is this a colour? it has a name or a number, or it is mixed from red, green and blue -/
def isColor (word : String) : Bool :=
  let cs := word.toList
  word = "default" || (colorNames.any fun line => (Text.words line.toList).contains cs) ||
    (cs.head? = some '#' && cs.length = 7 && cs.tail.all isHexDigit) ||
    ((inside? "color(" cs).any isByte) ||
    ((inside? "rgb(" cs).any fun mix =>
      let parts := Text.pieces ',' mix
      parts.length = 3 && parts.all fun p => (Text.natural? p).any (· < 256))

/-! ## Spellings -/

/-- a style with the words of a spelling -/
def ofWords (s : Style) : List String → Option Style
  | [] => some s
  | word :: ws =>
    let w := Text.lower word
    if w = "on" then
      match ws with
      | c :: ws => if isColor (Text.lower c) then ofWords { s with ground := Text.lower c } ws else none
      | [] => none
    else if w = "not" then
      match ws with
      | a :: ws => match attribute? a with
        | some n => ofWords { s with switches := (n, false) :: s.switches } ws
        | none => none
      | [] => none
    else if w = "link" then
      match ws with
      | l :: ws => ofWords { s with link := l } ws
      | [] => none
    else match attribute? w with
      | some n => ofWords { s with switches := (n, true) :: s.switches } ws
      | none => if isColor w then ofWords { s with color := w } ws else none

/-- the words that an attribute adds to a style's text -/
def switchText? (s : Style) (name : String) : Option String :=
  (s.switches.lookup name).map fun on => if on then name else "not " ++ name

/-- the text of a style: attributes in their order, colours, the address -/
def text (s : Style) : String :=
  Text.join " " (attributes.filterMap (fun a => s.switchText? a.1) ++ s.color.toList ++
    (s.ground.map ("on " ++ ·)).toList ++ (s.link.map ("link " ++ ·)).toList)

/-- the one name of all spellings of a style -/
def nameOf (spelling : String) : String :=
  match plain.ofWords ((Text.words spelling.toList).map String.ofList) with
  | some s => s.text
  | none => Text.lower (Text.strip spelling)

end Style

end ContractGraph.Markup
