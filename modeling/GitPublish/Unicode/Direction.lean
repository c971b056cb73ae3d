import GitPublish.Unicode.Runs

/-!
# Writing direction

The Unicode property Bidi_Class, as coarse as the rule for names that mix directions needs it: the
two kinds of right-to-left letters are one class, and so are all the neutral classes that may occur
inside a label of either direction.
-/
namespace GitPublish.Unicode

inductive Direction where
  | left
  | right
  | arabicNumber
  | europeanNumber
  | neutral
  | nonspacing
  | control
  deriving DecidableEq, Repr

/-- The direction with a number in the table. -/
def Direction.ofNumber : Nat → Direction
  | 0 => left
  | 1 => right
  | 2 => arabicNumber
  | 3 => europeanNumber
  | 4 => neutral
  | 5 => nonspacing
  | _ => control

/-- The numbers of directions, run by run. -/
def directions : Runs Nat := numbered
  ["9456e456f4a374q064q0a416B44107423141034131054n014v014O102470e420e4509410h4Dg54024801450241",
    "014De014Ec075I0014203411Bd51115112511251115Bo16224112411141124b5Bg1l5a214223115D5175121465",
    "2125144521a3n115u1r5Cr1b5Bq19521443115o145119511351155Bb135Bk1225195Ba1o512B05Bn0151015408",
    "540153075a025t015Bq01540458015k025e024701420152025Bp0154025402520353015u0253015b025Bp01540",
    "5510254015k025d01480651015Bq0152015104580157025b025u015Bt015c015B508450153015Bn01510355035",
    "10457025b025k0742015Bq015f025k025s025Bp02540458015k025t015C801570351015Cq015207540147085D2",
    "0152095b075C9025r0151015101544Bj0e51055102550b510B459015D6045106510252025p0254035g045d0152",
    "0256015f015Vv035Bg0a4D6014Tv016q024Dl035t025u025u025C00251075801520b570141015i0a460b435141",
    "5Dl025B2015Dm03540259015603540143024Eo0B24n0252015Bq015107510151015208560a52015Bg0Be520c5k",
    "045Bg015105510155015B8095c025B004520251035Bo015102530151035Bq0852025Eo03510d51075401560153",
    "025G60C05Nt0141034b034d034d034d02410b6341011o476Bg4166446641330635410a354h0Bg4B15f02410441",
    "024a014103450641014101410144014b0244054504420g4B903440N64C50q410Eh4p0b4l0B84k3Ce0O2410Kj4I",
    "00Tk420B0410D94H506440357074Dv015D00B05Cu4B20q410Cp4c0Gm4q0c440164430p49045201450245034Cp0",
    "25243014Cq014G40B44Bp024Bh0g4s034Bi0f4c044F7044D3024v014GO00C04VUg0Bn4K6034Cv04514a524u025",
    "Cg025e0B24D6014Dp01530154015p025104415b024Bq044Cc025q0i5d015B6085p0b5Be035Bg01520452025B70",
    "15C306520252025c0158015Bf015Bj0151035202550251015Ba0258015Dj024Dp01520154015TZf01115a114Qk",
    "1i4Dv1B14d134g5a460g5B3410j4104440Ef11410f4a374q064q0b4Dq074107410g4I1014Bu0Cd430d43014Cs0",
    "15H2015r3Dq055BE50Iv114H113511255145B81354115F5125Ci174P414581a2Bf155Hi1v2Bc125Cd165C61b5B",
    "h145Dq11015Bm0f5b0k4a0152025a035Bh04520257015Bt035B40551085Bu015c025Bk095a0452015Cv0352015",
    "102560152015Et0153085l025Bp0253015B50753055C6065d01510151015e025Cl08520351015n015Ck0651015",
    "40251025He04560251025r025Cl08520151025v0d4Bu015101520651015D503520451055I30951025I00251015",
    "4015Eg04520254015B00652025B80652045801590652035Be0d51025G601510351015G90751065Ck0m52075102",
    "51025Dq0653015102510751015C802530151015Kr025b025Bk05550151015n015Dq0t4FCe01560f5LG80c53035",
    "CO0055Br075BAo015Bv045Cf0141015TFo0251044ESs0Be520n5R00359084852075u045Br024l0C243514Fq0Cn",
    "4y4014Bp014Bp014Bp014Bp014a0Bi3Q00Bn540Bi58015e015m05510f5BKg07510h5207510251055D4015F0075",
    "Ln015Bt045f014Pc045Hu025Hj015201570255015Ia0Gg175Dd175BN5124Ie1Bc440D44c0f420f410f410B54a0",
    "b354v014Bq064Bt014Fi064Eq0+o440h430d430Dn440Cv460c44014f0c440Bo480a460B8480u42024Ce0Kk4c0e",
    "420d4309470Be4107480e44094709470Ej410Bn4B50a3BA4024B--u024B--u024B--u024B--u024B--u024B--u",
    "024B--u024B--u024B--u024B--u024B--u024B--u0I24Hg5DQg4Bx-u024B--u024B--u024"]

def direction (c : Char) : Direction := .ofNumber (directions.getD c 0)

end GitPublish.Unicode
