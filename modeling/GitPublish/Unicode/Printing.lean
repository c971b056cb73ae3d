import GitPublish.Unicode.Runs

/-!
# Text shown in quotes

A text is shown between double quotes, with a backslash before quotes and backslashes, and with an
escape for every character that cannot be shown alone. A character can be shown alone when it has a
shape of its own: it is no control, format or private character, no separator other than the space,
it is assigned, and it does not extend the character before it.
-/
namespace GitPublish

namespace Unicode

/-- The set of controls, separators, private and unassigned characters. -/
def shapeless : Runs Bool := members
  ["0B0CvB2c1Wa2647111k1Md1B62Bi231Bn8r46hm1G01Bg2Br2D5eBr2Bh2f1s211b5B07Cb1F118222m1711342922",
    "248142152p2316422m17121212211542233174117ha319131m1712152a131321f42c771318222m171215292223",
    "7342152ia216331432111232333c4533142161el5d131n1g291314721312242a7m131n1a152913147253142a13",
    "cd131Bj13164g2q131i3o191127314611186a23cBq4tB5211151o111n2511171a24B0C81B44B71B41f1dB5G611",
    "512Lp142711142B9142B1142711142f1Bp142C32B03q6Cm262U01s3Cp7m9o9kcd1312cCu2a6a6e1b6Cp7Bb5C6a",
    "v1c4c413Ba25bBc4q6b3Bu2C11t2b6a6e2Be2ckCd1F68Bs3f3Bu5Bb2b8Bb5Qm262B626281111111v2Bl1f1e261",
    "j2319ho8Bfh22r1d3B2eB1fEc4UqmblBYk2Lu5Bd11512Bo72eo97171717171717171DuB2q1CpcGmqg1Bv1Cm2D7",
    "5Bb1Cu1Cm9Bg1yTd3Bn9KskFo8GtkBs3a6Bo8C68c6Dkbu3Ce1b4B11Bn9e2a2D7osa6262697171Bs4Du2a6Kz4cn",
    "4BhII4Le2DaB67c55q151112121UaB0Ba6Bj1j14451E74Fu362626233717d22c1q1j121f2eB2Dr534Bd3Co1d31",
    "BfBeE2t3Bhfs4B49u5Bb5u1B54eBaEu2a6B44B44B88Bkbc1f17121b1f17123BkcJn9ma8o61Ba19C56211Bc1231",
    "2n1C889Bgj125B13r5rB6Bo4k2Bi1258131t234a797C0B0B74c9Bm3t2r5q74c7CgC9BnBjdBj7Be8a6B63t82Ggv",
    "1Ba1322g689B1Be8BamqB6skn9Ce4B49Bu15dp7a6Bl1i8B79D01kbi1BfBu711141f1b6Br5a6418222m1712151a",
    "22232161572735ba11211B61a1121141a1282tCs15uC88aF6Bm2B6B2C5ba6djBq6a6ksr2f4nFpBsD4Cjc821281",
    "21u122c9aC682Be2brC88CjdC97aCm8CoB2ea691Bd1eat3B02m1eC97121Bc3112198a66121B512167a6Bc4aHmp",
    "7h1B93tCl1fBidyrD6Df15bG4CScD3dBBggmaDyr5S7GVpBqBW6Rp7v1a4Ch1a6u26aC6aa171l5jNgBqG6Cr5p2pB",
    "cCb4Bp7hC05b79HGmB9B0D1DjIPt417121J3f1t321e48McCI4Db5d397a24Dx0Ht3Nk6nfhfBe2n9DkBsHmaB72Ca",
    "8DglC6DqkckcCn9pE7Cl1C7122122241c11171C11428171s141511371Kk2J42Vuf51fBCgv66Gl71h2712155BuB",
    "11DgBd3e2a42K0vhBq51OgBaGmBb41G0v1m82H0714121f1G52gB9Cc4a42YhC4CcBtG241r1211211a1411116141",
    "11111312112111111111121124171414111a1h53151hBk2IeBc4D4cf2f1f1B5aFeBotdBc4972e6Eq+p3h3d3Gq6",
    "c41fc4Bo8a6B88u2c42e9B7Ko8e2d3b3Bp114g2c4a7Ej1D7BA5BJX0B0EIu2FUe2HJhfTeCN2QuBP2Ewb5IJaVTE6",
    "HgF-Qg"]

/-- The set of characters that extend the one before them. -/
def extenders : Runs Bool := members
  ["Y0DgIj7I7Bd11121211C8bBglg1D57262214B31urCrbBq991o4191315Bb3Br9Bao1B0Bn111484137a2t1Bq1112",
    "48191a2q122Bp142422331u231b2Bp1451241k2m611Bq112148173a2u1Br111c191B8131Bn113531472b2t1Bq1",
    "2211331472b2s2Bp211248191a2t1C8141231181Ch127c8D2129b7C92r11111Bne15125b1B491D64161222p243",
    "g4d12261f1Vv3zi4s3t2u2C0217812b91Bd311Dl2B21Dm3429163Gr221Bq1171111286a21BgBe2ck4Bga43B69c",
    "2B0426Bo1123115Bo822Eo31d17416132G6C0Qc1G3B1C-u3Ed1D0B0Ra6D92zOk41aB02Cg2Ig13141p251En2qid",
    "1B68pb11Bc3Bg1242221B41C362222c181Bf1Bj113225211Ba281He12141TZg1X1gggLe2St1H21El5BU631254B",
    "8341F52Rt4C15Jt2Cd6C6bBh4Dr1BmfB9122a3Bh42271Bt3B4518Bu1c2Bk9118421Cv3246121Et138l2Bp21111",
    "c191e735C31261121134311e2Cl82311n1Ch12611211212Hb1246212r2Cl82112Da11128D51112415I3912Hl1a",
    "441Eg42241B0aB8624819623Bed12G611311G971611Cim271212Dq631121711C823111Kr2b2Bk553n1FH516fLG",
    "8c33CO05Br7BAo1Bv4Ch1b2TFb2ET1Be2nQu5368827u4Ek3BzrBn4Bi81e1m51fBKg71h271215D41F07Ln1Bt4Ps",
    "4Hu2Hj1217251Oq7Dd7YFWlD0E0Hg"]

/-- Whether a character can be shown alone. -/
def isShown (c : Char) : Bool := !shapeless.getD c false && !extenders.getD c false

end Unicode

namespace Text

/-- The digits of a number in lower case hexadecimal. -/
def hex (n : Nat) : List Char := Nat.toDigits 16 n

/-- How a character is shown inside quotes. -/
def showChar (c : Char) : List Char :=
  if c = '\x00' then ['\\', '0']
  else if c = '\t' then ['\\', 't']
  else if c = '\n' then ['\\', 'n']
  else if c = '\r' then ['\\', 'r']
  else if c = '"' || c = '\'' || c = '\\' then ['\\', c]
  else if Unicode.isShown c then [c]
  else "\\u\x7b".toList ++ hex c.toNat ++ ['\x7d']

def quoted (cs : List Char) : List Char := '"' :: cs.flatMap showChar ++ ['"']

end Text
end GitPublish
