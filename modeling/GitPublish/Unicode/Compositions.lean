import GitPublish.Unicode.Runs

/-!
# Canonical decompositions and compositions

Which characters stand for a letter with marks, and which pairs of characters have one character
that stands for both. Hangul syllables are not listed: they follow a rule of their own.
-/
namespace GitPublish.Unicode

/-- Entries of a table of sequences: each is the distance from the code point before it, a count and
as many code points. `fuel` bounds the number of entries. -/
def sequencesFrom (fuel before : Nat) (ns : List Nat) : List (Nat × Nat × List Char) :=
  match fuel, ns with
  | fuel + 1, gap :: count :: rest =>
    let here := before + gap
    (here, here, (rest.take count).map Char.ofNat) :: sequencesFrom fuel here (rest.drop count)
  | _, _ => []

/-- Entries of a table of pairs: each is the distance between first members, the second member, and
the character for both. -/
def pairsFrom (before : Nat) : List Nat → List (Nat × Nat × Char)
  | gap :: second :: whole :: rest =>
    let key := (before + gap) * 0x200000 + second
    (key, key, Char.ofNat whole) :: pairsFrom (before + gap) rest
  | _ => []

/-- The value that a table holds at exactly this key. -/
def exactly? {α : Type} (r : Runs (Nat × α)) (key : Nat) : Option α :=
  match r.get? key with
  | some (found, value) => if found = key then some value else none
  | none => none

def decompositions : Runs (Nat × List Char) :=
  let ns := numbers
    ["G02C1Y012C1Y112C1Y212C1Y312C1Y812C1Ya22C3Z712C5Y012C5Y112C5Y212C5Y812C9Y012C9Y112C9Y212C9Y",
    "822CeY312CfY012CfY112CfY212CfY312CfY832ClY012ClY112ClY212ClY812CpY132D1Y012D1Y112D1Y212D1Y",
    "312D1Y812D1Ya22D3Z712D5Y012D5Y112D5Y212D5Y812D9Y012D9Y112D9Y212D9Y822DeY312DfY012DfY112DfY",
    "212DfY312DfY832DlY012DlY112DlY212DlY812DpY122DpY812C1Y412D1Y412C1Y612D1Y612C1Z812D1Z812C3Y",
    "112D3Y112C3Y212D3Y212C3Y712D3Y712C3Yc12D3Yc12C4Yc12D4Yc32C5Y412D5Y412C5Y612D5Y612C5Y712D5Y",
    "712C5Z812D5Z812C5Yc12D5Yc12C7Y212D7Y212C7Y612D7Y612C7Y712D7Y712C7Z712D7Z712C8Y212D8Y232C9Y",
    "312D9Y312C9Y412D9Y412C9Y612D9Y612C9Z812D9Z812C9Y742CaY212DaY212CbZ712DbZ722CcY112DcY112CcZ",
    "712DcZ712CcYc12DcYc52CeY112DeY112CeZ712DeZ712CeYc12DeYc42CfY412DfY412CfY612DfY612CfYb12DfY",
    "b32CiY112DiY112CiZ712DiZ712CiYc12DiYc12CjY112DjY112CjY212DjY212CjZ712DjZ712CjYc12DjYc12CkZ",
    "712DkZ712CkYc12DkYc32ClY312DlY312ClY412DlY412ClY612DlY612ClYa12DlYa12ClYb12DlYb12ClZ812DlZ",
    "812CnY212DnY212CpY212DpY212CpY812CqY112DqY112CqY712DqY712CqYc12DqYcB22CfYr12DfYre2ClYr12Dl",
    "Yrt2C1Yc12D1Yc12C9Yc12D9Yc12CfYc12DfYc12ClYc12DlYc13ClY8Y413DlY8Y413ClY8Y113DlY8Y113ClY8Yc",
    "13DlY8Yc13ClY8Y013DlY8Y023C1Y8Y413D1Y8Y413C1Y7Y413D1Y7Y412G6Y412H6Y432C7Yc12D7Yc12CbYc12Db",
    "Yc12CfZ812DfZ813CfZ8Y413DfZ8Y412NnYc12UiYc12DaYc42C7Y112D7Y132CeY012DeY013C1YaY113D1YaY112",
    "G6Y112H6Y112GoY112HoY112C1Yf12D1Yf12C1Yh12D1Yh12C5Yf12D5Yf12C5Yh12D5Yh12C9Yf12D9Yf12C9Yh12",
    "D9Yh12CfYf12DfYf12CfYh12DfYh12CiYf12DiYf12CiYh12DiYh12ClYf12DlYf12ClYh12DlYh12CjZ612DjZ612",
    "CkZ612DkZ632C8Yc12D8Yc72C1Y712D1Y712C5Z712D5Z713CfY8Y413DfY8Y413CfY3Y413DfY3Y412CfY712DfY7",
    "13CfY7Y413DfY7Y412CpY412DpY4Id1Y011Y121Yj12Y8Y1Bg1Vpa1Br72F8Y112yhY111Fn12ylY112ynY112ypY1",
    "22yvY122z5Y112z9Y113zpY8Y1q2ypY812z5Y812zhY112zlY112znY112zpY113+5Y8Y1q2zpY812+5Y812zvY112",
    "+5Y112+9Y152+iY112+iY8Bc2BAlY012BAlY822BAjY142BA6Y852BAqY112BAoY012BB3Y6b2BAoY6B02BBoY6n2B",
    "BlY012BBlY822BBjY142BCmY852BBqY112BBoY012BC3Y6o2BDkYf12BDlYfCa2BAmY612BBmY6e2BAgY612BBgY61",
    "2BAgY812BBgY832BAlY612BBlY632BGoY812BGpY812BAmY812BBmY812BAnY812BBnY832BAoY412BBoY412BAoY8",
    "12BBoY812BAuY812BBuY832BH8Y812BH9Y812BBdY812BCdY812BB3Y412BC3Y412BB3Y812BC3Y812BB3Yb12BC3Y",
    "b12BB7Y812BC7Y832BBbY812BCbY8J92BR7BSj12BR7BSk12BS8BSk12BR7BSl12BSaBSkEq2BWlBSk22BW1BSkh2B",
    "WiBSkSm2CJ8CJs82CJgCJs32CJjCJsB42CIlCJs12CImCJs12CInCJs12CIsCJs12CJ1CJs12CJ2CJs12CJbCJs12C",
    "JfCJsDc2CO7CNu12CO7COng2CN1CNs12CN2CNs22CNfCNsCk2CRiCRs32CRoCRsB32CQmCRs12CQnCRs12CQsCRs32",
    "CRbCRsHa2Cw7Cwm32Cw7CZu12Cw7Cwng2CZ1CZs12CZ2CZsBn2CyiC+nBm2C+6Czu12C+7Czu12C+6C+nDs2DC6DCm",
    "Do2DFvDGl72DG6DGl12DG6DGm22DG6DG213DG6DG2DGlDv2DK6DJu12DK7DJu12DK6DKnEe2DOpDOa22DOpDOf13DO",
    "pDOfDOa12DOpDOvL52Dw2Dzna2DwcDzn52DwhDzn52DwmDzn52DwrDznd2Dw0Dzla2DxhDxi22DxhDxk12DziDy022",
    "DzjDy092DxhDy0i2DyiDzna2DysDzn52Dz1Dzn52Dz6Dzn52DzbDznd2DygDzlDd2EB5EBeCX02GY5GZl22GY7GZl2",
    "2GY9GZl22GYbGZl22GYdGZl42GYhGZlB92GZqGZl22GZsGZl32GZuGZl12GZvGZl22Gw2GZlVt2C1Z512D1Z512C2Y",
    "712D2Y712C2Z312D2Z312C2Zh12D2Zh13C3Z7Y113D3Z7Y112C4Y712D4Y712C4Z312D4Z312C4Zh12D4Zh12C4Z71",
    "2D4Z712C4Zd12D4Zd13C5Y4Y013D5Y4Y013C5Y4Y113D5Y4Y112C5Zd12D5Zd12C5Zg12D5Zg13C5Z7Y613D5Z7Y61",
    "2C6Y712D6Y712C7Y412D7Y412C8Y712D8Y712C8Z312D8Z312C8Y812D8Y812C8Z712D8Z712C8Ze12D8Ze12C9Zg1",
    "2D9Zg13C9Y8Y113D9Y8Y112CbY112DbY112CbZ312DbZ312CbZh12DbZh12CcZ312DcZ313CcZ3Y413DcZ3Y412CcZ",
    "h12DcZh12CcZd12DcZd12CdY112DdY112CdY712DdY712CdZ312DdZ312CeY712DeY712CeZ312DeZ312CeZh12DeZ",
    "h12CeZd12DeZd13CfY3Y113DfY3Y113CfY3Y813DfY3Y813CfY4Y013DfY4Y013CfY4Y113DfY4Y112CgY112DgY11",
    "2CgY712DgY712CiY712DiY712CiZ312DiZ313CiZ3Y413DiZ3Y412CiZh12DiZh12CjY712DjY712CjZ312DjZ313C",
    "jY1Y713DjY1Y713CjYcY713DjYcY713CjZ3Y713DjZ3Y712CkY712DkY712CkZ312DkZ312CkZh12DkZh12CkZd12D",
    "kZd12ClZ412DlZ412ClZg12DlZg12ClZd12DlZd13ClY3Y113DlY3Y113ClY4Y813DlY4Y812CmY312DmY312CmZ31",
    "2DmZ312CnY012DnY012CnY112DnY112CnY812DnY812CnY712DnY712CnZ312DnZ312CoY712DoY712CoY812DoY81",
    "2CpY712DpY712CqY212DqY212CqZ312DqZ312CqZh12DqZh12D8Zh12DkY812DnYa12DpYa22LvY752C1Z312D1Z31",
    "2C1Y912D1Y913C1Y2Y113D1Y2Y113C1Y2Y013D1Y2Y013C1Y2Y913D1Y2Y913C1Y2Y313D1Y2Y313C1Z3Y213D1Z3Y",
    "213C1Y6Y113D1Y6Y113C1Y6Y013D1Y6Y013C1Y6Y913D1Y6Y913C1Y6Y313D1Y6Y313C1Z3Y613D1Z3Y612C5Z312D",
    "5Z312C5Y912D5Y912C5Y312D5Y313C5Y2Y113D5Y2Y113C5Y2Y013D5Y2Y013C5Y2Y913D5Y2Y913C5Y2Y313D5Y2Y",
    "313C5Z3Y213D5Z3Y212C9Y912D9Y912C9Z312D9Z312CfZ312DfZ312CfY912DfY913CfY2Y113DfY2Y113CfY2Y01",
    "3DfY2Y013CfY2Y913DfY2Y913CfY2Y313DfY2Y313CfZ3Y213DfZ3Y213CfYrY113DfYrY113CfYrY013DfYrY013C",
    "fYrY913DfYrY913CfYrY313DfYrY313CfYrZ313DfYrZ312ClZ312DlZ312ClY912DlY913ClYrY113DlYrY113ClY",
    "rY013DlYrY013ClYrY913DlYrY913ClYrY313DlYrY313ClYrZ313DlYrZ312CpY012DpY012CpZ312DpZ312CpY91",
    "2DpY912CpY312DpY372zhYj12zhYk13zhYjY013zhYkY013zhYjY113zhYkY113zhYjw213zhYkw212yhYj12yhYk1",
    "3yhYjY013yhYkY013yhYjY113yhYkY113yhYjw213yhYkw212zlYj12zlYk13zlYjY013zlYkY013zlYjY113zlYkY",
    "132ylYj12ylYk13ylYjY013ylYkY013ylYjY113ylYkY132znYj12znYk13znYjY013znYkY013znYjY113znYkY11",
    "3znYjw213znYkw212ynYj12ynYk13ynYjY013ynYkY013ynYjY113ynYkY113ynYjw213ynYkw212zpYj12zpYk13z",
    "pYjY013zpYkY013zpYjY113zpYkY113zpYjw213zpYkw212ypYj12ypYk13ypYjY013ypYkY013ypYjY113ypYkY11",
    "3ypYjw213ypYkw212zvYj12zvYk13zvYjY013zvYkY013zvYjY113zvYkY132yvYj12yvYk13yvYjY013yvYkY013y",
    "vYjY113yvYkY132+5Yj12+5Yk13+5YjY013+5YkY013+5YjY113+5YkY113+5Yjw213+5Ykw222z5Yk23z5YkY023z",
    "5YkY123z5Ykw212+9Yj12+9Yk13+9YjY013+9YkY013+9YjY113+9YkY113+9Yjw213+9Ykw212z9Yj12z9Yk13z9Y",
    "jY013z9YkY013z9YjY113z9YkY113z9Yjw213z9Ykw212zhY012zhY112zlY012zlY112znY012znY112zpY012zpY",
    "112zvY012zvY112+5Y012+5Y112+9Y012+9Y133zhYjw513zhYkw514zhYjY0w514zhYkY0w514zhYjY1w514zhYkY",
    "1w514zhYjw2w514zhYkw2w513yhYjw513yhYkw514yhYjY0w514yhYkY0w514yhYjY1w514yhYkY1w514yhYjw2w51",
    "4yhYkw2w513znYjw513znYkw514znYjY0w514znYkY0w514znYjY1w514znYkY1w514znYjw2w514znYkw2w513ynY",
    "jw513ynYkw514ynYjY0w514ynYkY0w514ynYjY1w514ynYkY1w514ynYjw2w514ynYkw2w513+9Yjw513+9Ykw514+",
    "9YjY0w514+9YkY0w514+9YjY1w514+9YkY1w514+9Yjw2w514+9Ykw2w513z9Yjw513z9Ykw514z9YjY0w514z9YkY",
    "0w514z9YjY1w514z9YkY1w514z9Yjw2w514z9Ykw2w512zhY612zhY413zhY0w512zhw513zhY1w522zhw213zhw2w",
    "512yhY612yhY412yhY012yhY112yhw521zp32F8w213znY0w512znw513znY1w522znw213znw2w512ylY012ylY11",
    "2ynY012ynY112ynw512HzvY012HzvY112Hzvw212zpY612zpY413zpY8Y013zpY8Y132zpw213zpY8w212ypY612yp",
    "Y412ypY012ypY122H-uY012H-uY112H-uw212+5Y612+5Y413+5Y8Y013+5Y8Y112+1Yj12+1Yk12+5w213+5Y8w21",
    "2z5Y612z5Y412z5Y012z5Y112z1Yk12F8Y012F8Y111D033+9Y0w512+9w513+9Y1w522+9w213+9w2w512yvY012y",
    "vY112z9Y012z9Y112z9w511Fk31IA211IA3J51z941Cb12C1YaDf2IMgZo12IMiZoj2IMkZov2IOgZo12IOkZo12IO",
    "iZoBl2IQ3Zo52IQ8Zo32IQbZoo2IR3Zo22IR5Zor2IRsZo32IS3Zo32IS5Zo22IS8Zon2BtZo22IT1Zob2ISdZo12B",
    "sZo12BuZo12IT4Zo12IT5Zo32ITiZo12ITjZo32ITmZo12ITnZo72ITqZo12ITrZo32IU2Zo12IU3Zo32IU6Zo12IU",
    "7ZoB32IV2Zo12IV8Zo12IV9Zo12IVbZoBh2ITsZo12ITtZo12IUhZo12IUiZo72IViZo12IVjZo12IVkZo12IVlZoB",
    "s1MA811MA9Bzi2KWtZoBLg2MCbMEp22MCdMEp22MCfMEp22MChMEp22MCjMEp22MClMEp22MCnMEp22MCpMEp22MCr",
    "MEp22MCtMEp22MCvMEp22MD1MEp32MD4MEp22MD6MEp22MD8MEp72MDfMEp12MDfMEq22MDiMEp12MDiMEq22MDlME",
    "p12MDlMEq22MDoMEp12MDoMEq22MDrMEp12MDrMEqn2MC6MEpa2MEtMEpe2MFbMEp22MFdMEp22MFfMEp22MFhMEp2",
    "2MFjMEp22MFlMEp22MFnMEp22MFpMEp22MFrMEp22MFtMEp22MFvMEp22MG1MEp32MG4MEp22MG6MEp22MG8MEp72M",
    "GfMEp12MGfMEq22MGiMEp12MGiMEq22MGlMEp12MGlMEq22MGoMEp12MGoMEq22MGrMEp12MGrMEqn2MF6MEp32MHf",
    "MEp12MHgMEp12MHhMEp12MHiMEp42MHtMEpBSA21BDC811ZXk11BDWa11BDG811xWh11TRi11U-511BHys11BHys11",
    "WKh11BEOh11VM711WK811YPm11zT911-y511BBRv11BBzq11BCHo11BEEf11wQ211xIr11yGp11y+u11BBBt11BELa",
    "11BGPh11TU211Uxl11wY411yQr11BBRd11BHQu11XKg11x-b11BBOd11BCL411YW911BAOo11BCAv11XWa11ZYn11x",
    "La11yXs11BEGe11Ty611UNn11UWu11ZG411wWj11yQg11zX711BAA111BBQ611BBSs11BDPf11BFZi11BGxf11BHPq",
    "11+Ec11+Lv11-N011BA+911BEY411BHTv11BCWm11WGv11XY411-D011BADu11yT211+Ga11BDG211BFXn11WGo11X",
    "D211wQj11xOq11xYf11-Jf11-Rn11BFSb11UWi11BAEb11UOs11UOc11+Qs11-Nu11BA-h11BFTl11BCy011YWf11w",
    "Q211BCXu11TRp11W-711YAi11yy711zLg11UYn11+Hr11Tzv11Xz911TQd11xGc11ZLo11-J211U+311WCu11zY111",
    "BBC911BCVa11wzq11BDzg11xE811YXu11BAX511Yz011zL511TVe11UL911UO911wE111-H711BATf11BCWi11BEOf",
    "11UXl11VC211WLj11XXc11ZO511x-u11+Ja11BFNd11BGTa11BHUn11BHWe11UUr11ZW611wxn11BDx211XTk11YMg",
    "11YQ011ZEq11xZ311yK911zE911+Oa11-Pk11BADf11BDZ611BBHe11BEB311BEwa11UQn11UV311VFt11yG811BCG",
    "211BCVa11XW911X-l11Yxr11wze11-Bu11yxl11TX411VXp11W-711XNq11YAs11yzi11zD911-yq11BAC611BERk1",
    "1BFXm11BFw811BGAo11Tyb11+Ne11BENk11BFVo11YH111TU611UGq11W-e11XBv11ZMp11wQ211yOe11zS211BBHs",
    "11BEDs11BHyd11ZU811BFRe11UU911Zxr11Z-j11xK111xUs11zA911zKp11+Db11-Ig11BGCu11ULd11YRe11BFTo",
    "11UBb11XIp11xPa11BDZa11Xyb11YK411wAn11yy711BFU611UR911VAf11XD511ZQj11Zwe11wF811xH511zA611z",
    "P211-xp11BCGf11BCH111BEOc11BFX211UZv11xVq11VAt11yOg11zEo11BBPq11BFV311BHCn11BHUv11Zyn11xOb",
    "11BAP811+Wb11+Z011-Ei11yW011yEp11BCwo11TW011BAZm11URq11UQ711XV611YWj11-Gm11Wy511xIu11ZVk11",
    "BDZr11BCCc11BFSd11BCMb11XWj11UK011VO031WCq21ZTk31UOu11yZa11zWa11+Js11+Ku11+L511+Mf11BFwm11",
    "-Fu11-zt21BBQi21BCXo31BEBo11BEHt41BGHf11BGHs11BGJ811BHNk11BEGu11BFVn11Tze11UH711UKd11UW911",
    "UX411Uwh11VMt11VQ611VT811WC011WF811XD411XDe11YEk11YL811YMe11YPi11ZKf11ZP211ZUh11wE511xLn11",
    "xQq11xZ211yLe11yRb11zB211+Eh11+Ju11+K911+K811+Kg11+Km11+Kt11+Md11+Me11+S011+U111++011-Pk11",
    "-Q911-S111-xi11BAA511BAPd11BATp11BATp11BBCn11BCIg11BCMm11BCY111BCZp11BDGj11BDI811BDzm11BEB",
    "o11BFX311BF-v11BGBr11YDl11EQXe11BAQo31TR611UNl11UL811Ty011UK511UM011UW711UXq11VMt11VKl11VM",
    "p11VP211WCq11WFj11WK411WKk11WT211WZ811XWi11XWp11Xx911Xzd11YGo11YKe11YI811YMe11YL011YPi11YR",
    "k11Y+411ZAs11ZCi11ZKm11ZTk11ZYn11ZYr11Zwm11wxp11wzq11xK111xWr11xWb11xZ211yAu11yLe11zz711yR",
    "l11yVf11yZa11zDh11zI611zJr11zQt11zQv11zWa11zWr11zXk11zwa11zw011+Gc11+Vh11++011-Dr11-Kr11-P",
    "k11-Zu11BAA511BAwi11BA-f11BBxp11BCK111BCM611BCMm11BCVv11BCXo11BCWb11BCY111BCXu11BCXd11BCZp",
    "11BCya11BDI811BDZo11BEDi11BEMp11BETm11BFTs11BFX311BFwm11BF+r11BF-v11BGAb11BGBr11BGYi11BHys",
    "11EKCa11EKC411EM+l11Oyt11QAo11QBp11EUS911EXGg11E-Wj11BHw311BHyeC42BOpBNk22BPiBNnb2BP9BO112",
    "BP9BO213BP9BNsBO113BP9BNsBO212BOgBNn12BOgBNo12BOgBNs12BOhBNs12BOiBNs12BOjBNs12BOkBNs12BOlB",
    "Ns12BOmBNs22BOoBNs12BOpBNs12BOqBNs12BOrBNs12BOsBNs22BOuBNs22BP0BNs12BP1BNs22BP3BNs12BP4BNs",
    "22BP6BNs12BP7BNs12BP8BNs12BP9BNs12BPaBNs12BOlBNp12BOhBNv12BOrBNv12BP4BNvCTr2CBOiY7r2CBOqY7",
    "CVm2CEEpCEFq22CEErCEFqf2CEF5CEFqE32CEJhCEJ712CEJiCEJ7Qs2CEw7CEZu12CEw7CEwnBn2CEy2CE+922CEy",
    "4CEzr92CEybCE+232CEygCE+9Bk2CE+2CE+222CE+2CEzo12CE+2CE+9Hj2CFFpCFFq12CFFpCFFg22CFFpCFFtHs2",
    "CFNoCFNf12CFNpCFNfxt2CGJlCGJgR-92CYIuCYIu12CYIuCYJ912CYIuCYIv12CYJ9CYIv12CYIuCYJ013CYIuCYI",
    "uCYIv13CYIuCYJ9CYIv13CYIuCYIuCYJ0DC02CxL7CxL712CxL3CxL713CxL3CxL7CxL7Y-k2DUKnDUL512DUKoDUL",
    "513DUKoDUL5DULe13DUKoDUL5DULf13DUKoDUL5DULg13DUKoDUL5DULh13DUKoDUL5DULiCn2DUNpDUL512DUNqDU",
    "L513DUNpDUL5DULe13DUNqDUL5DULe13DUNpDUL5DULf13DUNqDUL5DULfCJS01TRt11TRo11TS111EAJ211Tx011T",
    "ze11Tzr11UA211UDq11UEp11UH711UGf11NEu11EBRq11UKd11UKk11UL411ULn11EBIs11NFp11UL711UMd11EBKb",
    "11UMn11UN411TWc11UNc11UNl11FEOv11UPl11UQ311NGv11URr11US611UTi11UTn11NIl11UW711UW911UX411UX",
    "q11UY511UY611UYn11Uw911Uwh11Uwq11Uxj11Uxt11Uxv11Uxv11Uxv11ECRc11yDg11U+a11U+v11ECx311U-b11",
    "U-h11VA611VEu11VBo11VC811VD811VF211VHm11VIg11VKj11VL311VM411VM411VMp11VNb11VNj11VO211VYm11",
    "VQ611VYn11VSh11VTk11UQ711WHe11V+e11V-k11WAd11Vyb11WBi11WBh11WFc11EFH411WHi11WHn11WI611WIq1",
    "1WJ211WL211EFV811EFXa11WPc11WQr11WR711WOo11WT611NXe11NXs11WY811WZu11WZu11EGO811W+311W+o11W",
    "-711W-j11EGYo11W-v11XA611Xwj11XB211Ny111XD011XDe11XG011XEd11EHP411XK311EHP611XLe11XLb11XLs",
    "11XP111XP211OBf11XPt11XR811XRt11XT911OD211EIM311ODs11XVg11XVj11XVm11XWa11FIyi11XXu11EIZh11",
    "EIZh11BAQ111XZ211XZ211OG711EMVo11EYOq11Xx211Xxb11OH311Xyq11X+d11X+n11X-p11YE111OJq11OIs11Y",
    "Ek11EJWk11YG711YK811YKc11YKe11YKc11YLq11YMe11YNi11YN411YNf11YOu11YPi11YPm11YQg11YQr11YSt11",
    "YVh11YWk11Ywg11EKYc11YZt11YXs11Yx811Yy311Y-411EK-h11ZB211Y+511Yz911ORe11ZD911ZDu11ZEt11ZDn",
    "11OTc11ZKf11ZLc11EMAa11ZP311ZXo11ZS911OYp11ZUh11OY811OX411UMi11UMl11ZY011ZUs11BAFd11Q+p11Z",
    "Yn11ZYr11ZZ111Zwu11Zwj11EM+311Ow911Z-q11Zy511wCi11wE511ENDd11wEe11wAv11wIk11Oyt11wK211wN31",
    "1wPa11wV811ENV311wWr11PAo11wZ111EOF711wwk11PCe11wxi11wyv11wzq11wzr11EOUd11EHIb11EOXq11xCe1",
    "1EPFs11xFv11xGd11xD711xIm11xJu11xLn11xK111xL911xLo11xM511EPIu11xJk11xRf11xTe11PJj11xWb11xW",
    "711EPWh11xPp11xxe11EPwu11EPye11x+611yBp11yAu11yAr11PMm11yCa11yDt11yDn11yFd11EBJ511yK511EQT",
    "311yMs11EQzb11yR811yRl11ySg11ERQ811yU011yUl11ERZl11ESAk11yxq11yyb11PVc11yz511PVo11PVo11zC7",
    "11zCs11zDh11zE511zGa11PYr11zJ411ETBm11zJu11ETEi11zLg11EIMv11zQg11ETz111ETzo11EUC411P-s11QA",
    "811zXk11EUHj11EUHi11EUIp11EUJj11zYu11zYv11zYv11zwa11QBp11zyb11QC611QEm11EVAt11+Ce11+Ec11+G",
    "c11QH311EVR611+Km11EVUq11EVW511+Mf11+Pb11QJf11+S011+Sa11+Sf11EWLs11EWV711EWV711+Xe11QQ211E",
    "Wzb11++611++911QR711EXE011-Gi11QV011-H811-H311-I011EXy611-L311QY111-O711-Q211-S511QZk11EYR",
    "811EYS711Qwp11EYWp11-xq11EYZu11-yl11--q11BAA511EZGq11EZJ311BAD011EZN811BADg11EMwv11Q+l11BA",
    "Fi11BAI311RAb11BAJu11WVl11EZz711EZzl11EMyj11EMys11BAQ111BAQ411BDyu11RDb11BAUh11BAUb11BAUt1",
    "1UVj11BAVh11BAVj11BAVt11BAX611EwZs11BAX511BAYt11BAx311BAzd11BAZ311BAzt11BA-711BBCn11BAwj11",
    "BA+a11BA+c11BA+s11ExBm11ExLb11ExGl11RJb11BBHh11BBHj11BBIm11Ey+a11BBL411ExZc11RKt11RL111Exz",
    "h11EyGi11RLb11BBSg11BBSs11BBT711BBT911BBV911BBU811BBYe11BBX211BBxp11BBZ811BBxb11BBy611ROn1",
    "1BB-111BCA111RPp11BCD011BCD311EzT711BCGn11BCGu11RRl11BCHq11NFr11E+Fe11E+L611RVu11RW711BCV0",
    "11BCXd11BCya11BDCl11E-F811BDFb11BDG111BDIr11BDLn11E-Zf11ECA411BDOb11BDNs11BDPg11ECGu11BDWk",
    "11BDZo11FBOi11FBPd11BEEk11BEHh11BEIh11FBZe11BEIr11BERo11BEWn11BEWo11BETs11BE-p11BFAl11FC-q",
    "11BFMb11SMl11BFNn11FDLn11SP611BFW311XNi11BFZ311FEK511FEQq11STe11STm11BF-011FFAa11SVi11FFEm",
    "11BGAb11BGAb11BGB911FFNm11BGH211SZj11BGJ911BGN711BGO211BGPu11S+e11FGZg11BGYi11BHC011BHHt11",
    "TGe11THd11BHL711FIGe11THo11FII511FIQe11FIUh11BHVr11TKm11BHXp11BHXu11BHY511BHYf11BHYm11BHZr",
    "11FJQ0"]
  ⟨(sequencesFrom ns.length 0 ns).toArray⟩

def compositions : Runs (Nat × Char) := ⟨(pairsFrom 0 (numbers
  ["BsZoITe1ZoIT01ZoITf3Y0G00Y1G10Y2G20Y3G30Y4I00Y6I20Y7R60Y8G40Y9HV20YaG50YcOd0YfQ00YhQ20Z3HV",
    "00Z5HQ00Z8I41Y7HQ20Z3HQ40ZhHQ61Y1I60Y2I80Y7Ia0YcIc0Z7G71Y7HQa0YcIe0Z3HQc0Z7HQg0ZdHQi0ZhHQe",
    "1Y0G80Y1G90Y2Ga0Y3HVs0Y4Ii0Y6Ik0Y7Im0Y8Gb0Y9HVq0YcIq0YfQ40YhQ60Z3HVo0Z7R80Z8Io0ZdHQo0ZgHQq",
    "1Y7HQu1Y1Pk0Y2Is0Y4HR00Y6Iu0Y7J00YcP60Z7J21Y2J40Y7HR20Y8HR60YcQu0Z3HR40Z7HR80ZeHRa1Y0Gc0Y1",
    "Gd0Y2Ge0Y3J80Y4Ja0Y6Jc0Y7Jg0Y8Gf0Y9HW80YcOf0YfQ80YhQa0Z3HWa0Z8Je0ZgHRc1Y2Jk1Y1HRg0YcP80Z3H",
    "Ri0Z7Jm0ZhHRk1Y1Jp0YcJt0Z3HRm0Z7Jr0ZdHRs0ZhHRq1Y1HRu0Y7HS00Z3HS21Y0Po0Y1K30Y3Gh0Y7HS40YcK7",
    "0Z3HS60Z7K50ZdHSa0ZhHS81Y0Gi0Y1Gj0Y2Gk0Y3Gl0Y4Kc0Y6Ke0Y7Re0Y8Gm0Y9HWe0YbKg0YcOh0YfQc0YhQe0",
    "YrN00Z3HWc0Z8Pa1Y1HSk0Y7HSm2Y1Kk0Y7HSo0YcKo0YfQg0YhQi0Z3HSq0Z7Km0ZhHSu1Y1Kq0Y2Ks0Y7HT00YcL",
    "00Z3HT20Z6Qo0Z7Ku1Y7HTa0YcL40Z3HTc0Z6Qq0Z7L20ZdHTg0ZhHTe1Y0Gp0Y1Gq0Y2Gr0Y3L80Y4La0Y6Lc0Y8G",
    "s0Y9HX60YaLe0YbLg0YcOj0YfQk0YhQm0YrNf0Z3HX40Z4HTi0Z8Li0ZdHTm0ZgHTk1Y3HTs0Z3HTu1Y0HU00Y1HU2",
    "0Y2Lk0Y7HU60Y8HU40Z3HU81Y7HUa0Y8HUc1Y0HXi0Y1Gt0Y2Lm0Y3HXo0Y4Ri0Y7HUe0Y8Lo0Y9HXm0Z3HXk1Y1Lp",
    "0Y2HUg0Y7Lr0YcLt0Z3HUi0ZhHUk7Y0H00Y1H10Y2H20Y3H30Y4I10Y6I30Y7R70Y8H40Y9HV30YaH50YcOe0YfQ10",
    "YhQ30Z3HV10Z5HQ10Z8I51Y7HQ30Z3HQ50ZhHQ71Y1I70Y2I90Y7Ib0YcId0Z7H71Y7HQb0YcIf0Z3HQd0Z7HQh0Zd",
    "HQj0ZhHQf1Y0H80Y1H90Y2Ha0Y3HVt0Y4Ij0Y6Il0Y7In0Y8Hb0Y9HVr0YcIr0YfQ50YhQ70Z3HVp0Z7R90Z8Ip0Zd",
    "HQp0ZgHQr1Y7HQv1Y1Pl0Y2It0Y4HR10Y6Iv0Y7J10YcP70Z7J31Y2J50Y7HR30Y8HR70YcQv0Z3HR50Z7HR90ZeHR",
    "b0ZhHUm1Y0Hc0Y1Hd0Y2He0Y3J90Y4Jb0Y6Jd0Y8Hf0Y9HW90YcOg0YfQ90YhQb0Z3HWb0Z8Jf0ZgHRd1Y2Jl0YcPg",
    "1Y1HRh0YcP90Z3HRj0Z7Jn0ZhHRl1Y1Jq0YcJu0Z3HRn0Z7Js0ZdHRt0ZhHRr1Y1HRv0Y7HS10Z3HS31Y0Pp0Y1K40",
    "Y3Hh0Y7HS50YcK80Z3HS70Z7K60ZdHSb0ZhHS91Y0Hi0Y1Hj0Y2Hk0Y3Hl0Y4Kd0Y6Kf0Y7Rf0Y8Hm0Y9HWf0YbKh0",
    "YcOi0YfQd0YhQf0YrN10Z3HWd0Z8Pb1Y1HSl0Y7HSn2Y1Kl0Y7HSp0YcKp0YfQh0YhQj0Z3HSr0Z7Kn0ZhHSv1Y1Kr",
    "0Y2Kt0Y7HT10YcL10Z3HT30Z6Qp0Z7Kv1Y7HTb0Y8HUn0YcL50Z3HTd0Z6Qr0Z7L30ZdHTh0ZhHTf1Y0Hp0Y1Hq0Y2",
    "Hr0Y3L90Y4Lb0Y6Ld0Y8Hs0Y9HX70YaLf0YbLh0YcOk0YfQl0YhQn0YrNg0Z3HX50Z4HTj0Z8Lj0ZdHTn0ZgHTl1Y3",
    "HTt0Z3HTv1Y0HU10Y1HU30Y2Ll0Y7HU70Y8HU50YaHUo0Z3HU91Y7HUb0Y8HUd1Y0HXj0Y1Ht0Y2Ln0Y3HXp0Y4Rj0",
    "Y7HUf0Y8Hv0Y9HXn0YaHUp0Z3HXl1Y1Lq0Y2HUh0Y7Ls0YcLu0Z3HUj0ZhHUlBeY0H-d0Y1y50w2H+1qY0HV60Y1HV",
    "40Y3HVa0Y9HV82Y4Ou1Y1Pq1Y1Ps0Y4P21Y1HQ83Y0HW00Y1HVu0Y3HW40Y9HW25Y1HRe5Y0HWi0Y1HWg0Y3HWm0Y9",
    "HWk1Y1HSc0Y4Rc0Y8HSe1Y4Ra2Y1Pu4Y0Or0Y1On0Y4Ol0YcOp6Y0HV70Y1HV50Y3HVb0Y9HV92Y4Ov1Y1Pr1Y1Pt0",
    "Y4P31Y1HQ93Y0HW10Y1HVv0Y3HW50Y9HW35Y1HRf5Y0HWj0Y1HWh0Y3HWn0Y9HWl1Y1HSd0Y4Rd0Y8HSf1Y4Rb2Y1P",
    "v4Y0Os0Y1Oo0Y4Om0YcOq6Y0HVg0Y1HVe0Y3HVk0Y9HVi1Y0HVh0Y1HVf0Y3HVl0Y9HVjfY0HQk0Y1HQm1Y0HQl0Y1",
    "HQnBpY0HSg0Y1HSi1Y0HSh0Y1HSjdY7HT41Y7HT55Y7HT61Y7HT77Y1HTo1Y1HTp1Y8HTq1Y8HTrkY7HUrB1Y0HWs0",
    "Y1HWq0Y3HX00Y9HWu0Z3HX21Y0HWt0Y1HWr0Y3HX10Y9HWv0Z3HX3eY0HXa0Y1HX80Y3HXe0Y9HXc0Z3HXg1Y0HXb0",
    "Y1HX90Y3HXf0Y9HXd0Z3HXh7YcPeBjY4Pc1Y4PdBrY4P01Y4P11Y6HQs1Y6HQt5Y4Rg1Y4RhD3YcPfHvY0Hzq0Y1y6",
    "0Y4Hzp0Y6Hzo0YjHY80YkHY90w5Hzs4Y0H+80Y1y80YjHYo0YkHYp2Y0H+a0Y1y90YjHZ80YkHZ90w5H+c2Y0H+q0Y",
    "1ya0Y4H+p0Y6H+o0Y8za0YjHZo0YkHZp6Y0H-o0Y1yc0YjHw80YkHw92YkH-c4Y0H-a0Y1ye0Y4H-90Y6H-80Y8zb0",
    "YkHwp4Y0H-q0Y1yf0YjHx80YkHx90w5H-s3w5Hzk2w5H+43Y0Hxg0Y1zc0Y4Hzh0Y6Hzg0YjHY00YkHY10w2Hzm0w5",
    "Hzj4Y0Hxi0Y1zd0YjHYg0YkHYh2Y0Hxk0Y1ze0YjHZ00YkHZ10w2H+60w5H+32Y0Hxm0Y1zf0Y4H+h0Y6H+g0Y8+a0",
    "YjHZg0YkHZh0w2H+m6Y0Hxo0Y1+c0YjHw00YkHw12YjH-40YkH-54Y0Hxq0Y1+d0Y4H-10Y6H-00Y8+b0YjHwg0YkH",
    "wh0w2H-64Y0Hxs0Y1+e0YjHx00YkHx10w2H-m0w5H-j1Y0H+i0Y1yg0w2H+n1Y0H-20Y1zg0w2H-73w5H-k4Y1+j0Y",
    "8+kBkY8BA7aY6BGg0Y8BGi3Y1BA32Y0BA00Y6BGm0Y8BA11Y6BG10Y8BGs1Y8BGu1Y0BAd0Y4BH20Y6BAp0Y8BH42Y",
    "1BAc4Y8BH65Y4BHe0Y6BAe0Y8BHg0YbBHi4Y8BHk4Y8BHo2Y8BHc3Y6BGh0Y8BGj3Y1BCj2Y0BCg0Y6BGn0Y8BCh1Y",
    "6BG20Y8BGt1Y8BGv1Y0BCt0Y4BH30Y6BBp0Y8BH52Y1BCs4Y8BH75Y4BHf0Y6BCu0Y8BHh0YbBHj4Y8BHl4Y8BHp2Y",
    "8BHd9Y8BCnuYfBDm1YfBDnD3Y8BGq1Y8BGrfY8BHa1Y8BHbJuBSjBR20BSkBR30BSlBR5B1BSkBR42BSkBR6DnBSkB",
    "W2hBSkBWj3BSkBW0SjCJsCJ98CJsCJh3CJsCJkEkCNuCOb0COnCOcM0CZuCwb0CwmCw80CwnCwcCbC+nCykBkCzuC+",
    "a0C+nC+c1CzuC+bDvDCmDC8DpDGlDG07DG2DGa0DGlDG70DGmDG84DGlDGbDsDJuDKa0DKnDKc1DJuDKbEiDOaDOq0",
    "DOfDOs0DOvDOu3DOaDOtS9EBeEB6CX0GZlGY62GZlGY82GZlGYa2GZlGYc2GZlGYe4GZlGYiB9GZlGZr2GZlGZt2GZ",
    "lGw01GZlGw13GZlGw3XkY4HRo1Y4HRpB3Y4HSs1Y4HSt7Y7HT81Y7HT9BtY2HVc0Y6HVm1Y2HVd0Y6HVnnY2HW61Y2",
    "HW7jY2HWo1Y2HWpBjY0HY20Y1HY40w2HY60w5Hy01Y0HY30Y1HY50w2HY70w5Hy11w5Hy21w5Hy31w5Hy41w5Hy51w",
    "5Hy61w5Hy71Y0HYa0Y1HYc0w2HYe0w5Hy81Y0HYb0Y1HYd0w2HYf0w5Hy91w5Hya1w5Hyb1w5Hyc1w5Hyd1w5Hye1w",
    "5Hyf1Y0HYi0Y1HYk1Y0HYj0Y1HYl7Y0HYq0Y1HYs1Y0HYr0Y1HYt7Y0HZ20Y1HZ40w2HZ60w5Hyg1Y0HZ30Y1HZ50w",
    "2HZ70w5Hyh1w5Hyi1w5Hyj1w5Hyk1w5Hyl1w5Hym1w5Hyn1Y0HZa0Y1HZc0w2HZe0w5Hyo1Y0HZb0Y1HZd0w2HZf0w",
    "5Hyp1w5Hyq1w5Hyr1w5Hys1w5Hyt1w5Hyu1w5Hyv1Y0HZi0Y1HZk0w2HZm1Y0HZj0Y1HZl0w2HZn7Y0HZq0Y1HZs0w",
    "2HZu1Y0HZr0Y1HZt0w2HZv7Y0Hw20Y1Hw41Y0Hw30Y1Hw57Y0Hwa0Y1Hwc1Y0Hwb0Y1Hwd7Y0Hwi0Y1Hwk0w2Hwm1Y",
    "0Hwj0Y1Hwl0w2Hwn8Y0Hwr0Y1Hwt0w2Hwv7Y0Hx20Y1Hx40w2Hx60w5Hz01Y0Hx30Y1Hx50w2Hx70w5Hz11w5Hz21w",
    "5Hz31w5Hz41w5Hz51w5Hz61w5Hz71Y0Hxa0Y1Hxc0w2Hxe0w5Hz81Y0Hxb0Y1Hxd0w2Hxf0w5Hz91w5Hza1w5Hzb1w",
    "5Hzc1w5Hzd1w5Hze1w5Hzf1w5Hzi4w5H+28w5H-iBqw5Hzn9Y0H+d0Y1H+e0w2H+f7w5H+7Bgw5H-n8Y0H+t0Y1H+u",
    "0w2H+vMiZoIMq2ZoIMr2ZoINeBsZoIOd2ZoIOf2ZoIOeBfZoIQ45ZoIQ93ZoIQcoZoIR42ZoIR6nZoIS17ZoIS42Zo",
    "IS73ZoIS95ZoITdkZoIT23ZoITg1ZoIThdZoITk1ZoITl3ZoITo1ZoITp3ZoIU01ZoIU11ZoIX01ZoIX15ZoIU41Zo",
    "IU53ZoIU81ZoIU9aZoIX21ZoIX3gZoIVc6ZoIVd1ZoIVe2ZoIVf7ZoIXa1ZoIXb1ZoIXc1ZoIXdDMhMEpMEk5MEpMC",
    "c2MEpMCe2MEpMCg2MEpMCi2MEpMCk2MEpMCm2MEpMCo2MEpMCq2MEpMCs2MEpMCu2MEpMD02MEpMD23MEpMD52MEpM",
    "D72MEpMD97MEpMDg0MEqMDh3MEpMDj0MEqMDk3MEpMDm0MEqMDn3MEpMDp0MEqMDq3MEpMDs0MEqMDtB2MEpMEu9ME",
    "pMHk5MEpMFc2MEpMFe2MEpMFg2MEpMFi2MEpMFk2MEpMFm2MEpMFo2MEpMFq2MEpMFs2MEpMFu2MEpMG02MEpMG23M",
    "EpMG52MEpMG72MEpMG97MEpMGg0MEqMGh3MEpMGj0MEqMGk3MEpMGm0MEqMGn3MEpMGp0MEqMGq3MEpMGs0MEqMGtk",
    "MEpMHn1MEpMHo1MEpMHp1MEpMHqbMEpMHuBVGlY7CBO98Y7CBP4CVvCEFqCEEq2CEFqCEEsaCEFqCEFbEcCEJ7CEJe",
    "1CEJ7CEJfQlCEZuCEwb0CEwnCEwcBrCE+9CEy32CEzrCEy57CE+2CEye5CE+9CEyhBiCEzoCE+70CE+2CE+50CE+9C",
    "E+8HnCFFgCFFs0CFFqCFFr0CFFtCFFuHvCFNfCFNq1CFNfCFNrxsCGJgCGJoR-9CYIuCYJ10CYIvCYJ30CYJ0CYJ50",
    "CYJ9CYJ23CYIvCYJ60CYJ0CYJ81CYIvCYJ77CYIvCYJ4DBqCxL7CxL94CxL7CxL82CxL7CxLa"])).toArray⟩

def syllableBase : Nat := 0xAC00

/-- The letters that a Hangul syllable stands for, if the character is one. -/
def hangulLetters? (c : Char) : Option (List Char) :=
  let n := c.toNat
  if syllableBase ≤ n && n < syllableBase + 11172 then
    let s := n - syllableBase
    let lead := Char.ofNat (0x1100 + s / 588)
    let vowel := Char.ofNat (0x1161 + s % 588 / 28)
    some (if s % 28 = 0 then [lead, vowel] else [lead, vowel, Char.ofNat (0x11A7 + s % 28)])
  else none

/-- The Hangul syllable for two characters: a leading consonant and a vowel, or a syllable without
a trailing consonant and one. -/
def hangulSyllable? (a b : Char) : Option Char :=
  let (m, n) := (a.toNat, b.toNat)
  if 0x1100 ≤ m && m < 0x1113 && 0x1161 ≤ n && n < 0x1176 then
    some (Char.ofNat (syllableBase + ((m - 0x1100) * 21 + (n - 0x1161)) * 28))
  else if syllableBase ≤ m && m < syllableBase + 11172 && (m - syllableBase) % 28 = 0 &&
      0x11A7 < n && n < 0x11C3 then
    some (Char.ofNat (m + (n - 0x11A7)))
  else none

/-- What a character decomposes into; most stand for themselves. -/
def decompose (c : Char) : List Char :=
  match hangulLetters? c with
  | some letters => letters
  | none => (exactly? decompositions c.toNat).getD [c]

/-- The one character that stands for two. -/
def compose? (a b : Char) : Option Char :=
  match hangulSyllable? a b with
  | some c => some c
  | none => exactly? compositions (a.toNat * 0x200000 + b.toNat)

end GitPublish.Unicode
