import GitPublish.Unicode.Runs

/-!
# How letters join

The Unicode property Joining_Type, as far as the rule for the zero width non-joiner needs it:
whether a letter joins the letter before it, the letter behind it, both, or lets a join pass
through.
-/
namespace GitPublish.Unicode

inductive Joining where
  | none
  | dual
  | left
  | right
  | transparent
  deriving DecidableEq, Repr

def Joining.ofNumber : Nat → Joining
  | 1 => dual
  | 2 => left
  | 3 => right
  | 4 => transparent
  | _ => none

/-- The numbers of ways of joining, run by run. -/
def joinings : Runs Nat := numbered
  ["Fd014Si0Dg4Ij074I70Bd41014102410241014C80b4101430111043111311135143d110711321l4e0211433103",
    "3g1i3B6113219311131113212310137420642024104423a0312011f0141314315341139113111311132113r420",
    "13b133f12341131123312361B60b4p0B11949014o044109410341054i01351231113a113113334401110411013",
    "112350j33011205113117094a133101321236113f110o410B04Bn0141014408440143074a024t014Bq01440448",
    "014k024q0142024Bp0144024402420343014u0243014b024Bp014405410244014k024m0641014Bq01420141044",
    "80147024b024u014Bt014c014Bi0143014Bn0141034503410447024b024t014Bq014201460145024k024s024Bp",
    "02440448014k024t014C801470341014Cq0142074c084D20142094b074C9024r01410141014Bn0e41054102450",
    "b410B449014D6044106410242024p0244034g044d01420246014f014Vv034zi034t024u024u024C00241074801",
    "420b49014B901130341014g0Cp1c024B211411Dl034402490146034Gr0242014Bq014107410141014208460a42",
    "014Bg0Be420c4k044Bg014105410145014B8094c024B004420241034Bo014102430141034Bq0842024Eo03410d",
    "41074401460143024G60C04Qb0142024q054Bh0545064D00B14C-u034Ed014D00B04Ra044Db024zOk04410a4B0",
    "024Cg024Ig01430144014p0245014j0Bi112Ch024q0i4d014B6084p0b4Be034Bg01420442024B7014C30642024",
    "2024c0148014Bf014Bj0141034202450241014Ba0248014He01420144014TZg014X10g4g0g4Gf014Hp034Q1014",
    "H2014El054BU603410245044B80344014E00511310131023201253411251133113201324404113Eg0111311333",
    "113211311231113n04321Kh012B11131144C1054Jt024l013211021Bi064Bg03113h110b43113r04123c144Ba0",
    "111021331011232113211011231140131112Bl014Bm0f4B90142024a034Bh04420247014Bt034B40541084Bu01",
    "4c024Bk094a0442014Cv0342014102460142014Et0143084l024Bp0243014B50743054C6064d01410141014e02",
    "4Cl08420341014n014Ck064101440241024He04460241024r024Cl08420141024Da014101420641014D5014101",
    "420441054I30941024I002410144014Eg04420244014B00a4B80642044801490642034Be0d41024G6014103410",
    "14G907410641014Ci0m4207410241024Dq0643014102410741014C802430141014Kr024b024Bk05450141014n0",
    "14FGl0h460f4LG80c43034CO0054Br074BAo014Bv044Ch014TFo0241044ESs0Be420n4R003490g42074u044Ek0",
    "34Bzr0Bn440Bi48014e014m05410f4BKg07410h4207410241054D4014F0074Ln014Bt044Ps044Hu024Hj014201",
    "470245014Oq074B90C4184YFVl014u0D04E00Hg4F-Qg0"]

def joining (c : Char) : Joining := .ofNumber (joinings.getD c 0)

end GitPublish.Unicode
