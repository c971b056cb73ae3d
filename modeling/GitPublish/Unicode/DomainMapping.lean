import GitPublish.Unicode.Runs

/-!
# Characters in domain names

What becomes of each character in a domain name before it is looked up: some stay, some are dropped,
some stand for other characters (such as a capital letter for the small one), and the others are
refused.
-/
namespace GitPublish.Unicode

/-- What becomes of the characters of a run. Distances count code points. -/
inductive DomainRule where
  | keep
  | refuse
  | drop
  | up (distance : Nat)
  | down (distance : Nat)
  | become (target : List Char)
  deriving Repr

/-- Runs from a list of numbers: a kind, a length, and the data of the kind. `fuel` bounds the
number of runs. -/
def domainRules (fuel first : Nat) (ns : List Nat) : List (Nat × DomainRule) :=
  match fuel, ns with
  | fuel + 1, kind :: length :: rest =>
    let go (rule : DomainRule) (rest : List Nat) :=
      (first, rule) :: domainRules fuel (first + length) rest
    match kind with
    | 0 => go .keep rest
    | 1 => go .refuse rest
    | 2 => go .drop rest
    | 3 => go (.up (rest.headD 0)) rest.tail
    | 4 => go (.down (rest.headD 0)) rest.tail
    | kind => go (.become ((rest.take (kind - 5)).map Char.ofNat)) (rest.drop (kind - 5))
  | _, _ => []

/-- What becomes of characters, run by run. -/
def domainMapping : Runs DomainRule :=
  let ns := numbers
    ["0C13qB00B51B041E00771B0Y80141C902210171B0Y40242E071B0Y131Y70271B0Z741E841Cb0181BhIC4Bk81Bh",
    "IC4Bi81BjIC4Bk013nB00137B00B13110131101311013110131101311013110131101311013110131101311013",
    "1101311013110131101311013110131101311013110131101311013110171D9Y70172D9Da31101311023110131",
    "1013110172DcFn3110131101311013110171VsDe31101311013110131101311013110131101311013110131101",
    "3110131101311013110131101311013110131101311013110131101311013110141Dp31101311013110141Ic01",
    "31Gi311013110131Ge3110132Gd3110231Cf31Ga31Gb3110131Gd31Gf0131Gj31Gh3110331Gj31Gl0131Gm3110",
    "1311013110131Gq3110131Gq023110131Gq3110132Gp311013110131Gr311033110773D4Lu73DcDa73DeDa3110",
    "13110131101311013110131101311013110231101311013110131101311013110131101311013110273D4Dq311",
    "0141D141Bo31101311013110131101311013110131101311013110131101311013110131101311013110131101",
    "3110131101311013110141E20131101311013110131101311013110131101311013110731KRb3110141F331KR8",
    "023110141G331C531C7311013110131101311013110D141S841Cb41S841S141Br41Bq41Bl41S041Rv0v71B0Y67",
    "1B0Y771B0Ya71B0Z871B0Y371B0Yb0241Dt41Tl41Tf41Tb41Cf0Cr42C00141Bg71Y8Y131Dk09210B0311013110",
    "141Fr01311011271B0zp0341w331Dk1471B0Y181B0Y8Y131B641Wg33B51131C01132Bv013hB01139B00B331841",
    "u41p41d41641941f41m0131101311013110131101311013110131101311013110131101311013110141Bm41Bg4",
    "1Bf0141Bs41C0013110141Bm3110243E23gCg3B0B00Bg311013110131101311013110131101311013110131101",
    "311013110131101311013110131101311013110931101311013110131101311013110131101311013110131101",
    "311013110131101311013110131101311013110131101311013110131101311013110131101311013110131f31",
    "101311013110131101311013110131102311013110131101311013110131101311013110131101311013110131",
    "101311013110131101311013110131101311013110131101311013110131101311013110131101311013110131",
    "101311013110131101311013110131101311013110131101311013110131101311013110131101311013110131",
    "101113B6Bg120Be71BL5BM2031203110Bn180r14061h0m110Co71BR7BTk71BS8BTk71BW7BTk71BSaBTk0D4110B",
    "g120Br120D51e0Br120Bh120f110s1201110b150B0170Cb110Dl71CIlCJs71CImCJs71CInCJs71CIsCJs71CJ1C",
    "Js71CJ2CJs71CJbCJs71CJfCJs0B411081202120m11071101130412091202120418011471CN1CNs71CN2CNs117",
    "1CNfCNs04120p120311061402120m1107110171CRiCRs110171CRoCRs1102120111051402120313011771CQmCR",
    "s71CQnCRs71CQsCRs011171CRbCRs170h1a0311091103110m110711021105120a1103110312011f04120c17071",
    "10311081202120m11071102110512091202120317031471CZ1CZs71CZ2CZs1105120i1a0211061303110413021",
    "101110213021303130c140513031104120116011e0l150d1103110n110g1209110311041702110311021204120",
    "a170m1103110n110a1105120911031104170215031104120a11031c0d1103110Bj11031106140g120q1103110i",
    "130o1109110112071301140611011108160a12031c0Bi71DSdDRi07140t1B50211011105110o1101110c71DWdD",
    "Vi0a120511011107110a1271DVbDUp71DVbDV1021B00c4110Bm71Dw2Dzn04110471DwcDzn0471DwhDzn0471Dwm",
    "Dzn0471DwrDzn0c71Dw0Dzl03140271DxhDxi0171DxhDxk71DziDy081DziDxhDy071DzjDy081DzjDxhDy00771D",
    "xhDy00h71DyiDzn04110471DysDzn0471Dz1Dzn0471Dz6Dzn0471DzbDzn0c71DygDzl03110f110d1B50F03B6HD",
    "01131HD01531HD0120Bc41B00D2220H81104120711011104120B91104120B11104120711011104120f110Bp110",
    "4120C3120B0130q160Cm12468120U0110s130Cp170m190o190k1c0d110311021c0Bk220B8120a160a160b250a1",
    "60Cp170Bb150C61a0v110c140c1401130Ba12051b0Bc140q160b130Bu120C1110t120b160a160e120Be120c1k0",
    "Cd110F6180Bs130f130Bj41GCe41GCd41GC441GC262BC241GBs41GB431BCO331101154BbC+01243C+008180Bb1",
    "50Bc41HGb41HC741HGc0142HGc41Gwl48HGc0141HGd41GYq41HGe41HGd42HGc41HGb41HH242GXk41C441HH542H",
    "H441GXh42GXg41HH60141HH441HH341HA641HH341GXv42Bu41HH642HH341Bs41GXb41HH541Bn43GNb42GMq41HH",
    "p41HHh42HHf42GNk41GN742GN30d41GJr0B241Gw941HJp41Gw841HFe41Gw341HJq41Gw241Gw141GZu43GZs41Bc",
    "41GYb41GZs41B541GYc41GZr41GZt44GZs41GZq42GZh41HAa42GZd41Es42GZe41HK143GZc41GQ70C0311013110",
    "131101311013110131101311013110131101311013110131101311013110131101311013110131101311013110",
    "131101311013110131101311013110131101311013110131101311013110131101311013110131101311013110",
    "131101311013110131101311013110131101311013110131101311013110131101311013110131101311013110",
    "131101311013110131101311013110131101311013110131101311013110131101311013110131101311013110",
    "13110571D1Vu41Bq0241HNv0131101311013110131101311013110131101311013110131101311013110131101",
    "311013110131101311013110131101311013110131101311013110131101311013110131101311013110131101",
    "311013110131101311013110131101311013110131101311013110131101311013110131101311013110948806",
    "124681208488084880612468120811418114181141811418084880141G+50141G+60141G+70141G+80141Gzd01",
    "41Gze0141Gzf1271HY0zp71HY1zp71HY2zp71HY3zp71HY4zp71HY5zp71HY6zp71HY7zp71HY0zp71HY1zp71HY2z",
    "p71HY3zp71HY4zp71HY5zp71HY6zp71HY7zp71HZ0zp71HZ1zp71HZ2zp71HZ3zp71HZ4zp71HZ5zp71HZ6zp71HZ7",
    "zp71HZ0zp71HZ1zp71HZ2zp71HZ3zp71HZ4zp71HZ5zp71HZ6zp71HZ7zp71Hx0zp71Hx1zp71Hx2zp71Hx3zp71Hx",
    "4zp71Hx5zp71Hx6zp71Hx7zp71Hx0zp71Hx1zp71Hx2zp71Hx3zp71Hx4zp71Hx5zp71Hx6zp71Hx7zp0271Hxgzp7",
    "1zhzp71zczp110171Hzmzp42841Ca41HAf71zhzp71B0Yj41HA571B0Yj71B0w281B0Y8w271Hxkzp71znzp71zezp",
    "110171H+6zp41Cm41HAs41Cm41HAt71znzp81B0YjY081B0YjY181B0Yjw20341HC3120242841D441HBc1181B0Yk",
    "Y081B0YkY181B0Ykw20341HBj0442841Dg41HAu41781B0Y8Y081B0Y8Y141Hyf1271Hxszp71+9zp71+ezp110171",
    "H-mzp41E041HBd41Du41HBd71+9zp71B0Y171B0Yk116bB0210212014110571B0Zj0c13011741IAf0371IBiIBi8",
    "1IBiIBiIBi0171IBlIBl81IBlIBlIBl0471B1B10171B0Y50871BvBv71BvB171B1Bv0d91IBiIBiIBiIBi0741IBv",
    "25152641IC041IA81246IC041ICf31Mn41IBv42ICl41IAh4aICg41ICv31M741ICf42ID51141IBf41IBc41IB341",
    "IAr41HRr41IBd44IBb41IBa42IB8130871DiDj0p1e0B11f81D1BfD381D1BfDj41IEv71FgD30181D3BfDf81D3Bf",
    "Dl41HVc0171FgD641IF364D841H-862D962Dc0141IF771DeDf0242IF963Di0271DjDd81DkD5Dc71DkDd0141IFa",
    "0141HKt0141IFe0141IFv41IC642IGa0162D541IGb31s41IG641IG544Gx541IGg0181D6D1Do41HLs62zj41HLv3",
    "1Gh0462D441IH242IGv0681BhIC4Bn81BhIC4Bp91BhIC4BhBg81BhIC4Bj81BiIC4Bj81BhIC4Bl81BiIC4Bl81Bj",
    "IC4Bl81BkIC4Bl81BhIC4Bm81BlIC4Bm81BhIC4Bo81BjIC4Bo81BlIC4Bo81BnIC4Bo71BhIC441IHn71D9D981D9",
    "D9D971D9Dm41IHe71DmD981DmD9D991DmD9D9D971D9Do41IHh71DoD981DoD9D941II042IIa41II241II771D9D9",
    "81D9D9D971D9Dm41IHu71DmD981DmD9D991DmD9D9D971D9Do41II171DoD981DoD9D941IIg42IIq41IIi0331105",
    "81BgIC4Bj02140Es71IRbIRb81IRbIRbIRb0171IReIRe81IReIReIRe0Ho32DGv0Hv1m0b1l49JBf71BhBg71BhBh",
    "71BhBi71BhBj71BhBk71BhBl71BhBm71BhBn71BhBo71BhBp71BiBg81B8BhB981B8BiB981B8BjB981B8BkB981B8",
    "BlB981B8BmB981B8BnB981B8BoB981B8BpB991B8BhBgB991B8BhBhB991B8BhBiB991B8BhBjB991B8BhBkB991B8",
    "BhBlB991B8BhBmB991B8BhBnB991B8BhBoB991B8BhBpB991B8BiBgB91k81B8D1B981B8D2B981B8D3B981B8D4B9",
    "81B8D5B981B8D6B981B8D7B981B8D8B981B8D9B981B8DaB981B8DbB981B8DcB981B8DdB981B8DeB981B8DfB981",
    "B8DgB981B8DhB981B8DiB981B8DjB981B8DkB981B8DlB981B8DmB981B8DnB981B8DoB981B8DpB981B8DqB94qJC",
    "l4qJDf41JFq0BJ191IRbIRbIRbIRb0D781BqBqBt71BtBt81BtBtBt0D571KWtZo0En120Ea3BgBg0Bg3110141KPn",
    "41DX641KP70231101311013110141KQs41KPt41KQv41KQu01311023110641LAi41LA742KRv3110131101311013",
    "110131101311013110131101311013110131101311013110131101311013110131101311013110131101311013",
    "110131101311013110131101311013110131101311013110131101311013110131101311013110131101311013",
    "110131101311013110131101311013110131101311013110131108311013110431101150Bd11011501120Bo174",
    "1e011e0o19071107110711071107110711071107110Du1B20q110431PJe0Cj31yFc1c31HY031HZ731HZk31HZs3",
    "1Hwl31Hy031Hy631Hyp31Hzi31IRm31ISr31IT031ITm31IU931IUt31IWh31IX531IXf31Iy931I-631JA131JA53",
    "1JB231JBa31JC431JCg31JD831JEr31JFc31JG631Jzp31KA031KOb31KP131KP831KPi31KQ331KSe31LBa31LCp3",
    "1LGg31LH631LHo31LId31LK231LK431LVd31LVm31LW131LWd31Lw031Lw731Lwb31Lzv31L+831L+k31L+r31MAn3",
    "1MB731MBo31ME731MWb31MXo31MYc31NPf31NPj31NS531NSk31NT031NTk31NUq31NUu31Nz831Nzv31N+u31O+l3",
    "1PAm31PBc31PD531PDs31PE431PEa31PFt31PG131PH031QIm31QWk31QWv31QX331QX631QXd31QXu31QXv31Qwf3",
    "1RB631RBa31RLs31RM531RNm31RNs31RO431ROb31RR531RRb31RYe31RYk31Rw431Rwk31Ry231SDe31SDk31SE43",
    "1SOa31SS731SSc31SY131Swn31Sy431THt31TM131Tzu31T+o31UAg31UC231UE531UEf31UEk31UFk31UHv31UI83",
    "1UT131UT731UTf31UTn31UU631UUk31UUn31UX531UX831UXd31VW131VWu31WFi31WFt31WGj31WPd31WPp31WRv3",
    "1WTc31XF231XFg31XFu31XH031XI431XOa31XOl31XQn31XYe31XZc31X-s31YAg31YAk31YHf31YN631YR231YR73",
    "1YRb31ZOg31ZOo31ZTj31ZYc31ZYe31ZZs31Zz431Zzg31Zzj31Zzp31wAq31wBr31wC031wCd31wHj31wJ531wJ83",
    "1wOu31wP031wPi31wXd31wYs31wZ231wx731wxg31wxi31wxr31wyo31xJ231xVh31xVq31xWv31xXk31xXr31xY43",
    "1xY731xZe31xZh31xw131xw531xwh31xxb31xxp31xy031xzq31x+831x+b1Ba41L-00141L+k0Bj41B40131IY932",
    "IYb05110Cm120271B0MEp71B0MEq0271ME8MEa0Cv71MFjMG8150Bb1142IBh41Hy941IBi42Hy943IBk46Hya41IB",
    "643IBr41IB34aIBs4lH-e2142ICh42Hz041Hyt41Hys41Hyo41Hyl41Hyk41ICi41Hyi41Hyh42ICk41ICj42ICi41",
    "ICf41ICe45ICd41ICb41IC841IBv41IBp41IBl42Hyh43IBd42IA341IA142H-p41H-o41H-f41H-d110231HDe31H",
    "Hp31HDl31JK631HDk31HEm31HDj31Qyp31HFv31HDu31HD531Jyc31JMi31HIr0C61a0g81B8EI0B981B8EI2B981B",
    "8EI3B981B8EI5B981B8EI6B981B8EI7B981B8EI9B981B8EIbB981B8EIcB981B8EIeB981B8EIfB981B8EIgB981B",
    "8EIhB981B8EIiB981B8BLA0B981B8BMEoB981B8BMX4B981B8BNxsB981B8BOO8B981B8BPAkB981B8BQFcB981B8B",
    "RK4B981B8BRygB981B8BTB8B981B8BTTkB981B8BUG0B981B8BUYcB981B8BVKoB981B8BSHsB991B8BRR4BSA4B99",
    "1B8BRR4BVW4B91181B8TQ0B981B8TUcB981B8TQ9B981B8VWrB981B8TUkB981B8ULdB981B8TQ3B981B8ULbB981B",
    "8TStB981B8Uw1B981B8ZY8B981B8yDbB981B8xBkB981B8ZZ8B981B8BEOhB981B8VYvB981B8ZP5B981B8wBaB981",
    "B8ZY9B981B8+JuB981B8VAdB981B8yTpB981B8BDF1B981B8+KtB981B8UVkB981B8TX3B981B8VDsB981B8Wx6B98",
    "1B8zX3B981B8TY1B981B8BDG7B981B8UwkB981B8+LdB981B8TYhB981B8BAPaB981B8BAPjB931IYb31LBn31Mw13",
    "1SK80881DgDkD571BiBh71BiBi71BiBj71BiBk71BiBl71BiBm71BiBn71BiBo71BiBp71BjBg71BjBh71BjBi71Bj",
    "Bj71BjBk71BjBl41IL042IKv43IKu41IKt42IKs45IKr31+Mi31-R931BADk31BBIb31BBwm31BCN131BDRo31BEWf",
    "31BFIq31BGNh31BG-s31BHS731BIEi31BIWt71BTBoBLH071BSHsBRwo31BFBi0131Gy031HAb31Gy731JCo31HAg3",
    "1HX831Gxt31HX431G+l31IFo31NDu31PP031ON831NEr31Xw331JEg31Mwl31NMp31NDn31RVb31ILp31P-431WQb3",
    "1RW631IAs31RZv31QUt31JWo31XOd31HUd31IGi31OS931ZL531HDg31HXn31OG031Gx631Gy831Gx531KZv31IKb3",
    "1IEi31KHd31KFr31RBn31HCk31WQp31IF531JTc71BjBm71BjBn71BjBo71BjBp71BkBg71BkBh71BkBi71BkBj71B",
    "kBk71BkBl71BkBm71BkBn71BkBo71BkBp71BlBg71BhZY871BiZY871BjZY871BkZY871BlZY871BmZY871BnZY871",
    "BoZY871BpZY881BhBgZY881BhBhZY881BhBiZY871D8D781D5DiD771D5Dm81DcDkD441Re41Rd41Rc41Rb42Ra41R",
    "941R841R741R641R541R441R341R241R141R041Qv41Qt41Qs41Qr46Qq41Qo41Qm41Qk41Qi45Qg41Qf41Qe46Qd4",
    "4Qc71TX4VEc91MF2MGhMHsMG891MF2MHbMGlMF191MF2MHjMGqMF281MF2MHsMHb91MF4MGbMHjMFg81MF4MHjMG18",
    "1MF6MF9MHja1MF8MFpMFfMHsMG991MF8MHsMFbMHs81MFaMHjMFp81MFaMHsMH081MFbMF4MHa91MFbMH9MG3MG891",
    "MFbMHdMHaMHs81MFcMHdMHj81MFcMHjMGu71MFeMFc81MFeMGbMHs91MFdMH5MHaMHs91MFeMHbMG0MHs71MFdMHda",
    "1MFdMHdMFgMH9MH0b1MFdMHdMH1MHsMG8MHba1MFdMHdMHfMG3MG881MFgMH9MH0a1MFgMH9MH0MG8MHja1MFfMHbM",
    "FsMF4MHd91MFfMHdMHsMGd81MFhMHsMFp81MFjMHbMGa81MFjMHsMGt91MFlMF4MFfMHba1MFlMHjMG1MHsMH091MF",
    "nMHaMHjMFg81MFrMHjMG181MFrMHjMG881MG0MHsMFp71MG7MFn71MG9MHb71MG8MHj71MGaMGe81MGeMG3MG881MG",
    "fMF4MG4a1MGhMHsMFrMHjMG881MGhMHsMG491MGgMHsMHcMHba1MGkMF2MFpMG8MHb81MGkMFfMHb71MGkMFj71MGj",
    "MHba1MGlMF1MH9MG3MG991MGlMF3MHsMG8a1MGmMG3MFnMF7MHb81MGlMH9MHja1MGoMFfMFvMHsMHb71MGqMFt81M",
    "GqMGbMGi81MGoMHbMG481MGqMHjMFp81MGqMHsMFo81MGpMHsMFv91MGtMF4MHjMG881MGsMHbMG871MGrMHj81MGt",
    "MHjMG981MGrMHsMHb81MGrMHsMHj91MGuMF4MFfMHd81MGuMF4MHb81MGuMG3MGf81MGuMHbMFfa1MGuMHjMFnMH7M",
    "Hj91MGvMFfMHdMHj71MGvMHaa1MGvMHaMGgMHsMHb71MH1MFc91MH1MFcMG8MHj91MH1MHsMG8MHb81MH4MHsMG981",
    "MH4MHsMHb81MH6MF2MHj91MHaMG3MG8MHb71MHaMH981MHbMGkMHs91MHbMHsMGmMHb71MHcMH0a1MHcMHjMG8MFiM",
    "Hj81MHfMG3MG871BgyFp71BhyFp71BiyFp71BjyFp71BkyFp71BlyFp71BmyFp71BnyFp71BoyFp71BpyFp81BhBgy",
    "Fp81BhBhyFp81BhBiyFp81BhBjyFp81BhBkyFp81BhBlyFp81BhBmyFp81BhBnyFp81BhBoyFp81BhBpyFp81BiBgy",
    "Fp81BiBhyFp81BiBiyFp81BiBjyFp81BiBkyFp81D8DgD171D4D171D1Dl81D2D1Di71DfDm71DgD371D4Dd81D4Dd",
    "Bi81D4DdBj71D9Dl71XTjYQg71ZRdVEc71WJ7wx371ZQexFr91wBaXYfTYq+Ju71DgD171DeD171zsD171DdD171Db",
    "D171DbD271DdD271D7D281D3D1Dc91DbD3D1Dc71DgD671DeD671zsD671zsD771DdD771DbD771D8Dq81DbD8Dq81",
    "DdD8Dq81D7D8Dq81DkD8Dq71zsDc71DdDc71D4Dc71DbDc71D6Dd71DeDd71zsDd71DdDd71D3Dd71DbDd81DdDdBi",
    "81D3DdBi71DdBi81DbDdBi81DdDdBj81D3DdBj71DdBj81DbDdBj81DdIQlDj91DdIQlDjBi71DgD181DbDgD181Dd",
    "DgD181D7DgD181DiD1D4a1DiD1D4IQlDjb1DiD1D4IQlDjBi71DgDj71DeDj71zsDj71DdDj71DgDm71DeDm71zsDm",
    "71DdDm71DbDm71DdDm71DgDn71DeDn71zsDn71DdDn71DbDn71DdDn71Db+971Dd+91171D2Dh71D3D371D3D491D3",
    "IQlDbD71171D4D271D7Dp71D8D171D8Dg71D9De71DbDb71DbDd71DbDk71DcDd71DcDe81DcDfD771DcDo71DdD28",
    "1DdD9Dc81DdDfDc71DgD81181DgDgDd71DgDi71DjDi71DjDm71DnD281DmIQlDd81D1IQlDd71BhZP571BiZP571B",
    "jZP571BkZP571BlZP571BmZP571BnZP571BoZP571BpZP581BhBgZP581BhBhZP581BhBiZP581BhBjZP581BhBkZP",
    "581BhBlZP581BhBmZP581BhBnZP581BhBoZP581BhBpZP581BiBgZP581BiBhZP581BiBiZP581BiBjZP581BiBkZP",
    "581BiBlZP581BiBmZP581BiBnZP581BiBoZP581BiBpZP581BjBgZP581BjBhZP581D7D1Dc0yEd130Bn190Ks1k31",
    "101311013110131101311013110131101311013110131101311013110131101311013110131101311013110131",
    "1013110131101311013110j3110131101311013110131101311013110131101311013110131101311013110131",
    "10141BISi41BISh0Cq180B23110131101311013110131101311013110331101311013110131101311013110131",
    "101311013110131101311013110131101311013110131101311013110131101311013110131101311013110131",
    "10131101311013110131101311013110141108311013110141BCQ431101311013110131101311043110141BJJ8",
    "0231101311033110131101311013110131101311013110131101311013110141BJK441BJKf41BJKb41BJK141BJ",
    "K40141BJIi41BJJa41BJIl31z0311013110131101311013110131101311013110141Bg41BJK341BCRo31101311",
    "0141BJL7311013110131101311013110131101311013110141BJS11k41BJxu41BJyf41BJyd41BJy33110241BJW",
    "h41BJV60Bj130a160Bo180C6180c160Dk1b0u130Ce110b140B1110Bn190e120a120D71o0s1a061206120619071",
    "107110Bc41BBl41B641BKHj41d0941BKGs02144CgBF+g0Be120a160Kz41c0n140Bh1II441xFo41BEQd41wRo41x",
    "Br41BCRj41BKWj41BJJ162BHys41BHzo41ZZp41BIy441BH+441BFYn41BAV541+Ma41yWh41yKn41yAq41wE441BD",
    "Yi41BC-q41BCBt41BBJp41zGr41Zzf41XZ941BKUp41BJN741BDQp41BBY341yXi41WY241BG+h41BCJn41ywm41x+",
    "041BFSs41zwe41yI841BGSu41BEQi41BC+041BBRf41wCu41BKN741BJxn41BJSh41BFDc41BDSu41BBZ241BASc41",
    "+Jj41yZf41yWq41ww841YQ641XOa41Ww041BAFf41-zt41+yt41zLl41ZRr41WW141xTb41BID341BGRv41-H441+G",
    "741BBX441BADt41xE641YSi41BIDi41BHH941BDZp41BCxj41BCRv41-B041+Yp41YY641BJU041+G841BJxo41BJy",
    "941-Zq41+yp41zL741YX441xOq41BFUc41BDwq41xSv41BKZ541BHLo41BGKe41BBOq41BA-i41BJSc41BAD941BKN",
    "641BGNt41BKwq41BDEs41BE-h41-C841BJN841BIIe41BATc41zJ541xW541BDNm41wO141BDHa41BFTl41zUf41BF",
    "Ol41BBAh41BKW941BKAf41BJzg41BEHp41-Ek41zYd41xVb41Zzf41BJUa41BJJu41BIAe41BGUm41BEzu41BCM641",
    "BACr41Y+p41XYt41WXh41WVr41BJXf41BEW541BDQl41wRb41BGYq41BF-v41BFyg41BFHn41BCTf41BCCa41BBIb4",
    "1-+b41+z241+J841wTi41zFb41wLn41ZSh41BJy541BJXq41BJH141BCGn41yGu41xXn41BGWp41BGNe41BFR941BD",
    "Pn41-L841BBRi41BKW441BIVg41BHO341BG-h41BGMg41BBPr41BBK541+Ql41+La41Zxt41YVs41YTb41YMs41BKR",
    "a41BAA841wA341YY041BGGo41BKZk41BKH141BHOe41BHLu41BFB541BDzt41BB-i41BAxv41zG641wK741WRn41BE",
    "Zt41Yyo41BJZu41BESd41BEOm41BDE941BCZf41BBO341BBDk41BAL341-Fv41YLi41BKD441BFz441Ywr41BKN941",
    "BHFs41BC-c41wVd41BGSd41BGEl41BEO341BBSk41Ywm41BJzk41BJOf41BHLq41BE+d41BEUj41BEJq41BDHu41BB",
    "Ou41BBA341+Td41yIo41yI741wAt41YY841BJVc41BCZi41BJOg41BCAu41BBKn41y-m41Ywe41XMr41Wwk41BESt4",
    "1BDBa41+Ae41-Zc41-Wo41-L741BBZq41BCL241xV441BKZt41zW841BJ+541BJ-p41BGwr41BFZf41-Jd41BHTv41",
    "BDH741BEwi41wWc41yNs41Yzs41yDv41BGZo41BKGc41BJCd0241BINm0141BEyu0241BKBn41BBXc41BAwd41BAGs",
    "41BAFr41BAFl41BAEc41YW641-Kv41+T10141zAe0141xZa0241wPd41wJ90341YJr41YJf41YI441XDp41wKg41Yx",
    "o41BKU241BKKa41BKH541BJxa41BJwg41BJX441BJEp41BJBh41BI+g41BIPp41BIMi41BHOn41BHOe41BGN941BGG",
    "m41BGFh41BGCe41BFHi41BFD041BEzi41BENv41BDGe41BDBc41BCZ541BCGq41BCAu41BBR841BANq41BAIe41BAI",
    "441BAI641BAHv41BAHq41BAHk42BAG541BAAk41-+k41-Um41-D341-Cf41-Ao41+X841+Sm41+Df62BATp41zQ841",
    "yKg41yGb41xx141xZa41xMh41xKt41wVg41wRf41Yy541YTa41YRf41BGPm31CSE241+Cl1241BLCa41BKFs41BKIa",
    "41BKXj41BKJf41BKHl41BJzf41BJxt41BJGr41BJJ441BJH141BJEp41BIR241BIOa41BIJq41BIJb41BIAu41BHwp",
    "41BGzg41BGza41BGYr41BGWo41BGNe41BGJp41BGM041BGHr41BGJa41BGEp41BGCo41BFW941BFTi41BFRt41BFJq",
    "41BFAt41BExr41BExo41BEZu41BDYs41BDWs41BDKm41BCzt41BC+e41BCxo41BCTt41BCJe41BAXm41BCD941BB-g",
    "41BBxm41BBRg41BBMs41BBL841BBE741BBE641BA+s41BA+c41BAzk41BAwv41BAxa41BAOv41--r41-Xd41-Rj41-",
    "Kk41-Fs41+xj41+Vd41zx141zW541yZs41yLl41yJh41yJ241x-q41x+241x-g41xzr41xzv41x+h41xy641xZm41x",
    "Np41wya41wSh41wJb41wCf41ZCa41Y-441Yxi41YXe41YWb41YW041YUh41Xzr41WZi31CLLr31CLLk31COI441BPZ",
    "l41BOVr41BOUr31CVxk31CYPq31DA-s41Wyl41Wwb1B671D6D671D6D971D6Dc81D6D6D981D6D6Dc72DjDk1c71BL",
    "kBLm71BLkBL571BLkBLb71BLuBLm71BLkBLd1571BOpBNk0171BPiBNn41BzJu41BzKh42BzKf43BzK941BzJv41Bz",
    "Ju41B+Xu71BP9BO171BP9BO281BP9BNsBO181BP9BNsBO271BOgBNn71BOgBNo71BOgBNs71BOhBNs71BOiBNs71BO",
    "jBNs71BOkBNs71BOlBNs71BOmBNs1171BOoBNs71BOpBNs71BOqBNs71BOrBNs71BOsBNs1171BOuBNs1171BP0BNs",
    "71BP1BNs1171BP3BNs71BP4BNs1171BP6BNs71BP7BNs71BP8BNs71BP9BNs71BPaBNs71BOlBNp71BOhBNv71BOrB",
    "Nv71BP4BNv71BOgBOs62BTh64BTr64BTu64BU064BTq64BTv64BTp64BV464BV664BU464BU364BU664BU762BUd62",
    "BUc62BUe62BU862BUo62BUh64BV964BVf64BVj64BVh62BVq64BVr62BW064BW164BVu62BWi62BWj0B164BVd62BW",
    "762BW662BW871BW7BTk62BWb62BW562BW964BWg62BS972BR6BR772BR6BWl72BR6BS872BR6BW772BR6BW672BR6B",
    "W873BR6BWg73BR6BS964BWc71BR6BRc71BR6BRd71BR6BS571BR6BS971BR6BSa71BR8BRc71BR8BRd71BR8BRe71B",
    "R8BS571BR8BS971BR8BSa71BRaBRc71BRaBRd71BRaBRe71BRaBS571BRaBS971BRaBSa71BRbBRc71BRbBS571BRb",
    "BS971BRbBSa71BRcBRd71BRcBS571BRdBRc71BRdBS571BReBRc71BReBRd71BReBS571BRjBRc71BRjBRd71BRjBR",
    "e71BRjBS571BRlBRd71BRlBS571BRmBRc71BRmBRd71BRmBRe71BRmBS571BRnBRd71BRnBS571BRoBS571BRpBRc7",
    "1BRpBS571BRqBRc71BRqBS571BS1BRc71BS1BRd71BS1BRe71BS1BS571BS1BS971BS1BSa71BS2BRd71BS2BS571B",
    "S2BS971BS2BSa71BS3BR771BS3BRc71BS3BRd71BS3BRe71BS3BS471BS3BS571BS3BS971BS3BSa71BS4BRc71BS4",
    "BRd71BS4BRe71BS4BS571BS4BS971BS4BSa71BS5BRc71BS5BRd71BS5BRe71BS5BS571BS5BS971BS5BSa71BS6BR",
    "c71BS6BRd71BS6BRe71BS6BS571BS6BS971BS6BSa71BS7BRc71BS7BS571BS7BS971BS7BSa71BSaBRc71BSaBRd7",
    "1BSaBRe71BSaBS571BSaBS971BSaBSa71BRgBTg71BRhBTg71BS9BTg81B0BScBSh81B0BSdBSh81B0BSeBSh81B0B",
    "SfBSh81B0BSgBSh81B0BShBTg71BR6BRh71BR6BRi71BR6BS571BR6BS671BR6BS971BR6BSa71BR8BRh71BR8BRi7",
    "1BR8BS571BR8BS671BR8BS971BR8BSa71BRaBRh71BRaBRi71BRaBS571BRaBS671BRaBS971BRaBSa71BRbBRh71B",
    "RbBRi71BRbBS571BRbBS671BRbBS971BRbBSa71BS1BS971BS1BSa71BS2BS971BS2BSa71BS3BR771BS3BS471BS3",
    "BS571BS3BS971BS3BSa71BS4BS571BS4BS971BS4BSa71BS5BR771BS5BS571BS6BRh71BS6BRi71BS6BS571BS6BS",
    "671BS6BS971BS6BSa71BS9BTg71BSaBRh71BSaBRi71BSaBS571BSaBS671BSaBS971BSaBSa71BR6BRc71BR6BRd7",
    "1BR6BRe71BR6BS571BR6BS771BR8BRc71BR8BRd71BR8BRe71BR8BS571BR8BS771BRaBRc71BRaBRd71BRaBRe71B",
    "RaBS571BRaBS771BRbBS571BRcBRd71BRcBS571BRdBRc71BRdBS571BReBRc71BReBS571BRjBRc71BRjBRd71BRj",
    "BRe71BRjBS571BRlBRd71BRlBRe71BRlBS571BRmBRc71BRmBRd71BRmBRe71BRmBS571BRnBRd71BRoBS571BRpBR",
    "c71BRpBS571BRqBRc71BRqBS571BS1BRc71BS1BRd71BS1BRe71BS1BS571BS2BRd71BS2BS571BS3BRc71BS3BRd7",
    "1BS3BRe71BS3BS471BS3BS571BS4BRc71BS4BRd71BS4BRe71BS4BS571BS4BS771BS5BRc71BS5BRd71BS5BRe71B",
    "S5BS571BS6BRc71BS6BRd71BS6BRe71BS6BS571BS6BS771BS7BRc71BS7BS571BS7BTg71BSaBRc71BSaBRd71BSa",
    "BRe71BSaBS571BSaBS771BR6BS571BR6BS771BR8BS571BR8BS771BRaBS571BRaBS771BRbBS571BRbBS771BRjBS",
    "571BRjBS771BRkBS571BRkBS771BS3BS471BS3BS571BS4BS571BS6BS571BS6BS771BSaBS571BSaBS781BS0BSeB",
    "Sh81BS0BSfBSh81BS0BSgBSh71BRnBS971BRnBSa71BRpBS971BRpBSa71BRqBS971BRqBSa71BRjBS971BRjBSa71",
    "BRkBS971BRkBSa71BRdBS971BRdBSa71BRcBS971BRcBSa71BReBS971BReBSa71BRlBS971BRlBSa71BRmBS971BR",
    "mBSa71BRkBRc71BRkBRd71BRkBRe71BRkBS571BRkBRh71BRjBRh71BRlBRh71BRmBRh71BRnBS971BRnBSa71BRpB",
    "S971BRpBSa71BRqBS971BRqBSa71BRjBS971BRjBSa71BRkBS971BRkBSa71BRdBS971BRdBSa71BRcBS971BRcBSa",
    "71BReBS971BReBSa71BRlBS971BRlBSa71BRmBS971BRmBSa71BRkBRc71BRkBRd71BRkBRe71BRkBS571BRkBRh71",
    "BRjBRh71BRlBRh71BRmBRh71BRkBRc71BRkBRd71BRkBRe71BRkBS571BRjBS771BRkBS771BRnBS571BRjBRc71BR",
    "jBRd71BRjBRe71BRkBRc71BRkBRd71BRkBRe71BRnBS571BRoBS572BR7BSb0i81BRaBRcBS582BRaBRdBRc81BRaB",
    "RdBS581BRaBReBS581BRaBS5BRc81BRaBS5BRd81BRaBS5BRe82BRcBS5BRd81BRdBS5BSa81BRdBS5BS981BRjBRd",
    "BRc81BRjBRcBRd81BRjBRcBS982BRjBS5BRd81BRjBS5BRc82BRjBS5BS582BRlBRdBRd81BRlBS5BS582BRkBRdBS",
    "581BRkBRcBSa82BRkBS5BRe82BRkBS5BS581BRmBRdBS982BRmBReBS582BRnBS5BRd81BRnBS5BS581BRnBS5BSa8",
    "1BRpBRcBS582BRpBS5BS581BRpBS5BS981BRqBS5BS581BRqBS5BSa81BRqBS5BS982BS1BReBS581BS2BS5BRd81B",
    "S2BS5BS581BS4BRdBS581BS4BRdBSa81BS4BRdBS982BS4BRcBRc82BS4BReBS582BS4BS5BRd81BS5BRdBRc81BS5",
    "BRdBS581BS5BRdBSa81BS5BRcBRd81BS5BRcBS581BS5BReBRc81BS5BReBS50281BS5BRcBRe81BS7BS5BRc81BS7",
    "BS5BS581BS6BRdBS581BS6BRdBS982BS6BRcBS581BS6BRcBS981BS6BS5BSa81BS6BS5BS982BSaBS5BS581BR8BR",
    "eBSa81BRaBRcBSa81BRaBRcBS981BRaBReBSa81BRaBReBS981BRaBS5BSa81BRaBS5BS981BRcBS5BSa81BRcBRdB",
    "S981BRcBS5BS981BRjBReBS981BRlBRdBSa81BRkBRdBSa81BRmBRdBSa81BS4BRcBSa81BS4BS5BSa81BSaBRdBSa",
    "81BSaBRcBSa81BSaBS5BSa81BS5BS5BSa81BS2BS5BSa81BS6BRdBSa81BS2BS5BRd81BS4BRdBS581BRpBS5BSa81",
    "BS3BS5BSa81BS6BRcBRd81BS5BReBSa81BS4BRcBS581BS3BS5BS581BS4BRcBS581BS6BRcBRd81BRcBRdBSa81BR",
    "dBRcBSa81BS5BRcBSa81BS1BS5BSa81BR8BRdBSa81BS3BS5BS581BRpBRcBS581BRlBS5BS581BRjBReBSa81BS6B",
    "RcBSa081B081BRlBS4BWi81BS2BS4BWi91BR7BS4BS4BS791BR7BS3BR8BRh91BS5BRdBS5BRf91BRlBS4BRpBS591",
    "BRhBRjBS8BS491BRpBS4BSaBS791BS8BRjBS4BS581BRlBS4BS9n1BRlBS4BS9B0BR7BS4BS4BS7B0BRpBS4BSaBS7",
    "B0BS8BRjBS4BS5d1BRcBS4B0BRcBS4BR7BS4BS791BRhBWcBR7BS4032g41B-P441BTQg1142B-Op41B-Pk41B-On4",
    "2BTQ1170g1141BXQt41BXQv62Cv42B-Qd41B-Ns41B-Nr42BTR542BTRb42BTRj42BTRn44BTRl0241B-Pc41B-Pb7",
    "4B0Y563Cv41B-R441BTSg1241B-Qp41B-Qr41B-Qn41B-Rm41BXS442B-Rh41B-P041B-Ov42BTS941B-Rs41B-Rq4",
    "2B-Rn41B-Rm41B-R841B-R741B-R91141B-Qc42B-S541B-Rb1471B0BSb71BS0BSb71B0BSc0171B0BSd1171B0BS",
    "e71BS0BSe71B0BSf71BS0BSf71B0BSg71BS0BSg71B0BSh71BS0BSh71B0BSi71BS0BSi41B+Cv62BR262BR362BR4",
    "62BR564BR662BR764BR862BR964BRa64BRb64BRc64BRd64BRe62BRf62BRg62BRh62BRi64BRj64BRk64BRl64BRm",
    "64BRn64BRo64BRp64BRq64BS164BS264BS364BS464BS564BS664BS762BS862BS964BSa72BS4BR272BS4BR372BS",
    "4BR572BS4BR71221114B0B-X04qB-W04B4B-X042BVOq41B-Zj42BTwm41BTx341BTTa41BTTk41BTW641BTW541BT",
    "W441BTW341BTW241BTU941BTU841BTU741BTVc41BTTk41BTWf41BTWe41BTWd41BTWc42BTWb41BTWa41BTW941BT",
    "W841BTW741BTW641BTW541BTW441BTW341BTW241BTW141BTW041BTVu41BTVt41BTVs46BTVr41BTVp41BTVn41BT",
    "Vl41BTVj45BTVh41BTVg41BTVf46BTVe41BTVd41BTVa42BTY52142BxV141BxPp41BxV242BxPp43BxV446BxPq41",
    "BxUm43BxVb41BxUj4aBxVc1346BxT11246BxT31246BxT51243BxT71342B-Zu41B-Zm71B0Y441B-Zu41B-w041BX",
    "Zt1141BWX644BXSp41BWSd41BWR31h0c110q110j1102110f120e1B20Dr1503140Bd130Co110d13011Bf0Be1E20",
    "t130Bh1f0s140B4190u150Bb150u110B5140e1Ba3B8B80Dm120a163B4B8140B4140B8180Bk1b013bB7113fB711",
    "37B71132B7110b110f11071102130Bk1c0Jn190m1a081o0142CBFh41CBUt41CBHb41CBJi1141CBH441XB241CBH",
    "441CBH642CBJl41BwPs41CBJm41CBJh41CBH741CBJd41CBJg41CBJj41CBHp41CBTe41CBHq41CBJg41CBIk42CBH",
    "f41CBJf31BVx841YAf41CBJg31BVx641CBIi31BVx541CBVa42CBJd41CBZk41CBJc31BVx142CBJb41CBJa41CBI3",
    "41CBI641XC641CBI741CBJ741BWZv1141CBJ342CBIi41CBIt43CBPm31BVwh31BVx41C5061201110Bc110213011",
    "20n110C818091Bg0j1102150B1130r150r1B60Bo140k120Bi110215081103110t1203140a1709170C01B00B714",
    "0c190Bm130t120r150q17041c071Cg0C91Bn3BjC01d0Bj170Be180a160g3mB0130t18021Gg0v110Ba110312021",
    "g0618091B10Be180Ba1m0q1B60s1k0n190Ce140B4190Bu11051d0p170a160Bl110i180B7190D0110k1b0i110Bf",
    "1Bu0711011104110f110b160Br150a160411081202120m110711021105110a1202120312011601150712071305",
    "1b0a11011201110B6110a110112011104110a110218021t0Cs11051u0C8180a1F60Bm120B61B20C51b0a160d1j",
    "0Bq160a160k1s0r120f140n1Fp0Bs1D43B0B00Bj1c08120112081102110u1102120c190a1C608120Be120b1r0C",
    "8180Cj1d0C9170a1Cm081Co0B21e0a1609110Bd110e1a0t130B0120m110e1C9071102110Bc130111021109180a",
    "16061102110B511021106170a160Bc140a1Hm0p170h110B9130t1Cl011f0Bi1d0yr1D60Df11051b0G41CSc0D31",
    "d0BBg1g0m1a0Dyr150S71GVp0Bq1BW60Rp170v110a140Ch110a160u12061a0C61a0a1107110l150j1Ng0Bq1G63",
    "B0B00Br153pr120p1Bc0Cb140Bp170h1C0051b07190HGm1B90B01D10Dj1IPt0411071102110J31f011t0312011",
    "e04180Mc1CI40Db150d1309170a1204241Dws0Gm4qDTDl4aDTG003130Nk160n1f0h1f0Be120n190Dk1Bs0Hm1a0",
    "B7120Bl71DUKnDUL571DUKoDUL581DUKoDUL5DULe81DUKoDUL5DULf81DUKoDUL5DULg81DUKoDUL5DULh81DUKoD",
    "UL5DULi0e280C071DUNpDUL571DUNqDUL581DUNpDUL5DULe81DUNqDUL5DULe81DUNpDUL5DULf81DUNqDUL5DULf",
    "0Ba1l0C61Dq0k1c0k1c0Cn190p1E74qDUyv4qDUzp4qDU+j47DU-d114iDU-d4qDVA74qDVB141DVBr1142DVBr124",
    "1DVBr1242DVBr1244DVBr1148DVBr44DVCl1141DVCl1147DVCl114bDVCl4qDVDf4qDVE942DVF31144DVF31248D",
    "VF31147DVF3114qDVFt42DVGn1144DVGn1145DVGn1141DVGn1347DVGn114qDVHh4qDVIb4qDVJ54qDVJv4qDVKp4",
    "qDVLj4qDVMd4qDVN74qDVO14qDVOr4qDVPl4qDVQf4qDVR941DVLj41DVDe124hDUXn41DUY147DUXn41DNFq4hDUY",
    "h62+346DUYh41DNGp41DUZ741DUZ541DUZ441DUYp41DUYv41DUZ14hDUZh41DUZr47DUZh41DNHk4hDUwb62+346D",
    "Uwb41DNIj41DUx141DUwv41DUwu41DUwj41DUwp41DUwr4hDUxb41DUxl47DUxb41DNJe4hDUy562+346DUy541DNK",
    "d41DUyr41DUyp41DUyo41DUyd41DUyj41DUyl4hDUz541DUzf47DUz541DNL84hDUzv62+346DUzv41DNM741DU+l4",
    "1DU+j41DU+i41DU+741DU+d41DU+f4hDU+v41DU-947DU+v41DNN24hDU-p62+346DU-p41DNO141DVAf41DVAd41D",
    "VAc41DVA141DVA741DVA962+t124aDVyu4aDVz84aDVzi4aDVzs4aDV+60Uc1f05110f1BCg0v16061Gl07110h120",
    "7110211051549DXA043DW-v4bDW-u41DW-s42DW-r41COO141DWxi41DW-m41DW-l41DWx541DWz041DWy149DXB14",
    "2DXB042DXAu41DXAt46DXAs42DXAr41DW+m41DXAi41DXAk41DXAb41DW+041COQr41DWzs1B1011Dg0Bd130e120a",
    "14021K00v1h0Bq15011Og0Ba1Gm0Bb14011G00v110m18021H00711041102110f110G5120g1B93B2B20Ba140a14",
    "021Yh0C41Cc0Bt1G242DZ+p41DZ+m41DZ+k1141DZzt41DZ+k41DZ+q41DZ+h41DZzv44DZ+741DZ+r41DZ+m41DZ+",
    "f41DZ+s41DZ+g41DZ-241DZ-042DZ-b41DZ-941DZ-841DZ-341DZ-241DZ-141DZze41DZx341DZxt41DZzg1141D",
    "Z-p41DZ-m1141DZ+t1241DZ-q1141DZ+v44DZ-741DZ-r41DZ-m41DZ-f41DZ-s41DZ-g1141DwA042DwAb41DwA91",
    "141DwA31141DwA11641DwAm1441DwAq1141DZ-v1141DwA71141DwA741DwAr41DwAm1141DwAs41DwAg1141DwB01",
    "241DwB91141DwB31141DwB11141DZz31141DZ-g1141DwBp41DwBm1141DwAt1241DwBq41DwBh41DwAv41DwB7114",
    "2DwB741DwBr41DwBm41DwBf41DwBs41DwBg1141DwC042DwCb41DwC91141DwC341DwC241DwC141DwAe1141DZ+t1",
    "142DwCp41DwCm41DwCk42DwBt41DwCk41DwCq41DwCh41DwBv1143DwC741DwCr41DwCm41DwCf41DwCs41DwCg41D",
    "wD241DwD042DwDb41DwD941DwD841DwD341DwD241DwD11541DwDp41DwDm41DwDk1141DwCt41DwDk41DwDq41DwD",
    "h41DwCv1143DwD741DwDr41DwDm41DwDf41DwDs41DwDg41DwE241DwE042DwEb41DwE941DwE841DwE341DwE241D",
    "wE11Bk021Ie0Bc140D41c0f120f110f110B51b71BgBc71BhBc71BiBc71BjBc71BkBc71BlBc71BmBc71BnBc71Bo",
    "Bc71BpBc0581B8D1B981B8D2B981B8D3B981B8D4B981B8D5B981B8D6B981B8D7B981B8D8B981B8D9B981B8DaB9",
    "81B8DbB981B8DcB981B8DdB981B8DeB981B8DfB981B8DgB981B8DhB981B8DiB981B8DjB981B8DkB981B8DlB981",
    "B8DmB981B8DnB981B8DoB981B8DpB981B8DqB981MAkDjMAl41DyG841DyFq71D3D471DnDq014qDyGf71D8Dm71Dd",
    "Dm71DjD471DjDj81DgDgDm71DnD30q71DdD371DdD471DdDi0B371D4Da0t1Bo0q71MDrMCb71MFjMFj41DQKd1d41",
    "DD+541DFVq41DHS641DQKc41DIy841DGHr41CwBj41DGHe41DIxk41DC-p41DAHp41DDE241DH+f41DEUh41DIEh41",
    "DDDf41DIA341CzGv41C-I341CZLq41DGJk41DHPc41DAYi41DDyi41DDWj41DJB941DJB141CYP141DFC641DJA041",
    "DHRr41DDZ841CZG041DD+u41C+Fh41Czzp41DHRc41DAzl41DCZd41DCZf41C-I541DH+741DHE441CYHe1481MAkZ",
    "ZcMAl81MAkTQ9MAl81MAkTUcMAl81MAkWy9MAl81MAkyFpMAl81MAkYSjMAl81MAkzWnMAl81MAkUWtMAl81MAkZKn",
    "MAl1741DEVp41DHT21e061Eq0+p130h130d130Gq160c14011f0c140Bo180a160B8180u120c14021e091B70Ko18",
    "0e120d130b130Bp1101140g120c140a170Ej110Cs4aD++0011BA50BJX01B00EIu120FUe120HJh1f0Te1CN241FK",
    "O341FKO941FKO141BzX141FKF441FKCn41FKCb41FKA541FJye41FJxg41FJZ341FJZs41FQxe41ByOj41FJW141FJ",
    "Vr41FJVc41FJUq41ByXm41FQwq41FJVd41FJU841ByWb41FJU041FJTk41FKKd41FJTe41FJT641ZRt41FJR841FJQ",
    "r41FQw041FJP541FJOr41FJNg41FJNc41FQYf41FJKu41FJKt41FJK341FJJe42FJJ441FJIk41FJH341FJGs41FJG",
    "k41FJFs41FJFj63Uxv41BxQ841FB+541FJDc41FJCo41BxGl41FJCe41FJC941FJBl41FIyu41FJA541FI-m41FI+n",
    "41FIyu41FIwb41FIZi41FIXg41FIX162VM441FIVe41FIUt41FIUm41FIU841FIJl41FIS641FIJm41FIPt41FIOr4",
    "1FJS941FHx341FIE441FICv41FIC741FIGa41FIB441FIB641FHzc41BYxl41FHx841FHx441FHwm41FHw341FHZs4",
    "1FHXt41BYNo41BYLn41FHTm41FHS841FHRt41FHUd41FHQ041FQLp41FQLc41FHL162WZu41BXV441FHFa41FHEm41",
    "FHE841FHDt41BXKp41FHDj41FHDd41FGJ141FHCj41FQHl41FHAn41FHAa41FGzp41FG-d41BWUn41FGZp41BWUn41",
    "FGYg41FGYk41FGY442FGV041FQCk41FGU741FGSt41FGS941FGQu41FQB641BVY641FQAe41FGOr41FGOp41FGOn41",
    "FGO441VHt41FGMi62EIZh41EzUi62XZ241FP+f41BROv41BFVu41FGJn41FGJf41FPzo41FGI241FGGg41FGG741FG",
    "F641FGAv41FPx741FPy641FGAf41BUOg41FF+u41FFwu41FFwr41FFwq41FFwt41FFZg41FFYt41FFXq41FFY941FF",
    "Xv41FFWh41FFVu41FFVr41FFV241FFUo41FFSn41FFQ441FFP241FFL741BTNc41FFLs41FFNu41FFKj41FFJp41FF",
    "Gp41BTGd41FFEt41FFHr41FFIo41FPUk41FFCq41FFC641FFB841FFCf41FPSr41FExp41FEwt41BSG041FEX841FE",
    "Ok41FEU441FPNl41FERu41FPO841FPPd41FJw041FJZu41FEOk41FERp41E+B941FNHu41FEO141FENu41FENp41FE",
    "Lt41FEM941BRIq41FPMl41FEH541FEKr41FEEf41FECt41BRDm41FECm41FEG641FD+i41FPKa41FDz641FDw641FD",
    "Y041FDS341BQS941FDQi41FPGm41FDOe41BQC941FDMt41FPF441FDM141FDKl42FDJr41BPTa41BW-d41BPPv41FD",
    "Fc41BPBv41FDBt41FDBg41FDEn41FC-941FC+241FCya41FC+141FCyq41FCyc41FCy041BO-841FC+j41FCWp41FC",
    "Ur41FO+n41FCS041FCS541BORs41FCYl41FCN141BONi41BOM341FCKc41FCGq41FCHm41FCHq41FOy041FCGd41FC",
    "Er41FCF241FCDd41By-m41FB+n41BNVq41FBy241BNLk41FBXo41FBXc41FBWi41BMYr41FBV441FBUg41BMPh41BM",
    "Ij41FBNe41FBMu41FOTu41FBM662PVo41FBH741FBGj41FBFv41FBFc41FBD841FOQo41FBAg41BLHv41FA-o41BLF",
    "541FA+841BVyq41FAZa41BKMq41BKM441BKHp41FOK241FOJn41FASc41BKCe41BKCg41BKBa41BKAh41FAR762zYv",
    "41FAPu41FOIg41FANv41FOI541FOFm41BJJg41FAI041FAG341FAE441FODe41BIZc41E--t41BIVq41BIUg41E-+7",
    "41E-xc41FOB941E-Yp41E-Yg41E-Yc41BH-062EWV741E-Th41FNwu41BHNm41E-Ms41E-Mq41FNZt41BHH541E-Ek",
    "41FNW741E-E041E-E641E-Da41BGP541E-A941FNTc41E+z741E+xd41E+Zb41FNRt41BFwa41BFZc41FNQr41BFUs",
    "41E+Ps41BFRp41E+P341E+Lv41E+Ll41BFF141BFCp41E+It41BE+m41E+If41BRR141FNNc41E+Gg41E+E041FNLp",
    "41E+C741FHWh41BEP041BEOj41BRPm41BRPe41Ezya41Ezy841EwPf41FNJ341EzXu41EzY541EzXk41FJWv41EzX2",
    "41EzX141EzWo41EzVg41BDSr41EzVj41EzTs41EzRn41EzPe41EzTp41EzP041EzNn41EzK841EzSd41EzOn41EzOm",
    "41EzO741BDLe41BDBq41BDGh41FNDs41EzFn41EzFm41EzEk41BBP141EzC841BCU141FNCh41FNCe41BCPv41BCGv",
    "41FNC741Eyx341Eywo41Eywe41Eywd41EyYe41EyZg41EyVb41EyWo41EyS241EyUk41EySi41EyRo41FM-841EyOv",
    "41EyO041FM+941EyL341EyL141BAwu41EyHf41EyH941FMyj41EyGf41FRIf41BAIt41BAD641FMYf41FMY741ExZf",
    "41ExX341ExS741ExLt41-Jb41ExJ941ExIk41ExFr41ExD041+V941ByOl41ExAf41ExAv41Ew-c41ByHv41EwYa41",
    "EwV741zAe41y-k41EwKe41EwHi41EwGj41yVn41EwGb41EZzf42EZYh41EZxe41EZPi41EZOn41xPj41EZD341FMCq",
    "41EZBp41xDq41FMAc41EYZg41FHC241EYWi41wFh41Z+t41FLya41FLy341EYQq41ZPh41FLwa41ZL762BGAb41EYO",
    "n41ZCb41EYJ041FLWg41EYGr41EYCu41EYC441EYA941FLRq41XWp41EXXo41EXOb41EXIf41FLJv41FLJ141EXF84",
    "1WK241FLIp41WId41WA541Vy341EWwq41FLG041EWYu41EWYq41EWYk41EWYb41EWY541EWX141VAt1BP20Ewb150I",
    "Ja1VTE62Hg1F-Qg"]
  ⟨(domainRules ns.length 0 ns).toArray⟩

/-- The characters that a character of a domain name stands for; `none` if it is refused. -/
def mapInDomain (c : Char) : Option (List Char) :=
  match domainMapping.getD c .keep with
  | .keep => some [c]
  | .refuse => none
  | .drop => some []
  | .up distance => some [Char.ofNat (c.toNat + distance)]
  | .down distance => some [Char.ofNat (c.toNat - distance)]
  | .become target => some target

end GitPublish.Unicode
