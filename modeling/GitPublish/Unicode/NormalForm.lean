import GitPublish.Unicode.Compositions

/-!
# Marks and the composed normal form

Marks combine with the character before them, and have a class by which several marks on one letter
are put in order. The normal form of a text decomposes every character, puts the marks behind each
starter in the order of their classes, and then composes each starter with the marks that are not
blocked from it.
-/
namespace GitPublish.Unicode

/-- The set of characters of the general category Mark. -/
def marks : Runs Bool := members
  ["Y0DgIj7I7Bd11121211C8bBglg1D57262214B31urCrbBq991o4191315Bb3Br9Bao1B1Bm31i17a2t3Bo11722239",
    "1a2q123Bo115422331u231b3Bo1181313k2m613Bo117222373a2u1Br5331491B85Bn117131472b2t3Bo1171314",
    "72b2f1c4Bn217131491a2t3C61461118i2Bt127c8D2129b7C92r1111142Bhk125b1B491D4kn443132734dc11a4",
    "Vv3zi4s3t2u2C0B091Bd311Dl2B21Dmc4cGr5Bpa1t21BgBe2ck5BfhB69c3udBoeBgkEo31l416123G6C0WgB1C-u",
    "3Ed1D0B0Ra6D92zOk41aB02Cg2Ig13141n541Cj2Biiqid1B68pdBc4BfeB41C3ec182Bd3Bi113225211B9552Hc8",
    "12TZg1X1ggg+d1H21El5BU631254B8341F52Rt4C15Jt2Cd6C6bBh4Dq3BlfB9122a4Bdb71Bt3B4eg2Bc1c3Bge84",
    "12Csc6121Etcl4Bn217222391a22735C391121141511e2Ciin1ChkHb729r2CihDadD5fI0fHl612241112Ed7273",
    "1saB8714819bBegG68G7818Cim1eDq631121711C251215Kr49211Bg735n1FH516fLG8iCO05Br7BAo11Bn74Ch1b",
    "2TFb2ET1Be2nQu5368827u4Ek3BzrBn4Bi81e1m51fBKg71h271215D41F07Ln1Bt4Ps4Hu2Hj1217251Oq7Dd7YFz",
    "lHg"]

/-- Whether a character combines with the one before it. -/
def isMark (c : Char) : Bool := marks.getD c false

/-- The numbers of the combining classes, run by run. -/
def combiningClasses : Runs Nat := numbered
  ["Y00lH61H84Gs1H81Go5Gs2Ga4Gs2GabGs514Gs8H61Hg1H63Gs3H62Gs103H64Gs1H61H82Gs1H61H92Ha1H92Ha1H",
    "9dH6Ij05H6I901Gs4H61Gs3H61Gu1Gs6H66Gs2H61Gs2H61Gu1H41H61a1b1c1d1e1f1g1h1i2j1k1l1m101n101o1",
    "p101H61Gs101iC808H61u1v1B0Bg01r1s1t1u1v1B01B11B22H62Gs5H61Gs2H61Gsg01B3D507H6204H61Gs1H620",
    "2H6101Gs2H61GsB301B4u01H61Gs2H61Gs2H63Gs1H62Gs1H61Gs3H61Gs1H61Gs1H61Gs1H61Gs2H6F007H61Gs1H",
    "6901Gso04H6109H6103H6105H6Bb03GsBr02H63Gs4H6Ba05H65GseH6101Gs2H61Gs2H61Gs3H63Gs1r1s1t3H61G",
    "s2H62Gs5H6Bs017g019301H61Gs2H6D7017g019Bg01H6Bt017g019De017g019De017g019Dv019De017g019701C",
    "k1CrD5017g019Dd029g019Ds019Dd02D719d04DbDc02Dm19d04DqCc02Gsr01Gs101Gs101GoBn01E11E2101E450",
    "4E2201E2102H619102H6Bu01GsDg0171029Ci01GsWf03H6zk029u019Et019a01H6Gb01H4Ef01Gu1H61GsGr01H6",
    "1GsC7019k08H6201GsBg05H66Gs2H61Gs102Gs2H62Gs5H61GsiH61Gs206H61Gs4H61HaC8017f019B601H61Gs7H",
    "6Bm029Bq017b029C3017Eo03H610115Gs2H64Gs1H61071401Gs601H6302H6G602H61Gs7H61Gs2H61Ha1Gm1Gs1G",
    "aB5H61H82H41Gs1Gq1H61H91Gs1H61GsWg02H6214H6312H6401H630211H61Gs1H6214Gs1H6C-u03H6Ed019D00B",
    "0H6Ra01Gq1H41H81Gu2H0D9028zOk01H640aH6B002H6Cg02H6Ik019B5019En019r0iH6Bp03GsB5019Cv017c019",
    "Hf01H6102H61Gs202H6502H6101H6Bk019Hm019TZg01qY107H67Gs2H6+d01GsH201GsEl05H6BUi01Gs101H6B80",
    "1H6111Gs4019F501H61GsRt04H6C105H6Jt02H6Cd02Gs103GsC602Gs3H61Gs1H64GsBh01H61Gs1H61GsG0019B9",
    "019e019Bp01917C503H6Bg029Bu017Cc0199017Da01917Fi01719Cg027g019o07H6305H6Cp039Dh0193017n01H",
    "6D301917Hr01917Du019Dm01917Dj019Id01917I20294017Es019Cj019i019Ch019N5019I20171029Ch019N902",
    "9QPc019CO0051Br07H6BFp026TFc011FG602Go31301H25Go808Gs205H62Gsu04H6Ek03H6DNr07H610hH6207H61",
    "02H6105H6D401H6F007H6Ln01H6Bt04H6Ps02H81Gs1H6Hu01H61GsHj01H6201H6702H6501H6Oq07GsDd06H617+",
    "FVl0"]

/-- The combining class of a character: 0 for a starter, which marks never pass. -/
def combiningClass (c : Char) : Nat := combiningClasses.getD c 0

/-- Whether a character is a virama, the mark that silences a vowel. -/
def isVirama (c : Char) : Bool := combiningClass c == 9

/-- The text with `run`, marks that follow a starter, in the order of their classes. -/
def sortMarks (run : List Char) : List Char :=
  run.mergeSort fun a b => combiningClass a ≤ combiningClass b

/-- The text with every run of marks in order. The run that has been read so far is `run`, in
reverse order. -/
def reorderFrom (run : List Char) : List Char → List Char
  | [] => sortMarks run.reverse
  | c :: rest =>
    if combiningClass c = 0 then sortMarks run.reverse ++ c :: reorderFrom [] rest
    else reorderFrom (c :: run) rest

def reorder (cs : List Char) : List Char := reorderFrom [] cs

/-- The composed text behind `starter`, whose marks that found no composition so far are `marks`, in
reverse order. A mark is blocked by a mark of the same or a higher class, a starter by any mark. -/
def composeFrom (starter : Char) (marks : List Char) : List Char → List Char
  | [] => starter :: marks.reverse
  | c :: rest =>
    let blocked := match marks with
      | [] => false
      | m :: _ => decide (combiningClass c ≤ combiningClass m)
    match if blocked then none else compose? starter c with
    | some whole => composeFrom whole marks rest
    | none =>
      if combiningClass c = 0 then starter :: marks.reverse ++ composeFrom c [] rest
      else composeFrom starter (c :: marks) rest

/-- The composed form of a text whose marks are in order. -/
def composeAll : List Char → List Char
  | [] => []
  | c :: rest => if combiningClass c = 0 then composeFrom c [] rest else c :: composeAll rest

def normalForm (cs : List Char) : List Char := composeAll (reorder (cs.flatMap decompose))

end GitPublish.Unicode
