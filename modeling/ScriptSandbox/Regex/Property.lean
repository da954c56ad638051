import ScriptSandbox.Text.Class

/-!
# Properties of characters

The tables behind the escapes that ask for a property of characters: general categories, some
scripts, and a few properties that a character has or has not.
-/

namespace ScriptSandbox.Regex

/-- The categories of all characters in order: for each run of one category its letter, and how long
the run is, in base 36, unless it is a single character. -/
def categoryRuns : String :=
  String.join
    ["ZwWR3TR3NORSRMR2IaR2S3R2AqNROULUBqNSOSZxWRT4VRUVEPS!VUVSK2UBR2UKEQK3RAnSA7BoSB8ABABABABABA",
      "BABABABABABABABABABABABABABABABABABABABABABAB2ABABABABABABABAB2ABABABABABABABABABABABABABA",
      "BABABABABABABABABABA2BABAB3A2BABA2BA3B2A4BA2BA3B3A2BA2BABABA2BAB2ABA2BA3BABA2B2EAB3E4ACBAC",
      "BACBABABABABABABABAB2ABABABABABABABABAB2ACBABA3BABABABABABABABABABABABABABABABABABABABABAB",
      "ABABABABABABABAB7A2BA2B2ABA4BABABABAB1xE2BqDiU4DcUeD5U7DUDUhF34ABABDUAB~2DB3RA~4U2ARA3~A~A",
      "2BAh~A9BzAB2A3B3ABABABABABABABABABABABAB5ABSABA2B2A1fB1cABABABABABABABABABABABABABABABABAB",
      "VF5H2ABABABABABABABABABABABABABABABABABABABABABABABABABABABA2BABABABABABAB2ABABABABABABABA",
      "BABABABABABABABABABABABABABABABABABABABABABABABABABABABABABABABABABABABABABABABAB~A12~2DR6",
      "B15RM~2V2T~F19MFRF2RF2RF~8Er~4E4R2~b!6S3R2TR2V2FbR!R3EwDEaFlIaR4E2FE2rREF7!VF6D2F2VF4E2IaE",
      "3V2ERe~!EFEuFr~2E2hFbE~eIaExF9D2VR3D~2FT2EmF4DF9DF3DF5~2Rf~EpF3~2R~Eb~5EoUE7!2~5F9E15DFo!F",
      "wGE1iFGFEG3F8G4FG2EF7EaF2R2IaRDEfFG2~E8~2E2~2Em~E7~E~3E4~2FEG3F4~2G2~2G2FE~8G~4E2~E3F2~2Ia",
      "E2T2K6VTERF~2F2G~E6~4E2~2Em~E7~E2~E2~E2~2F~G3F2~4F2~2F3~3F~7E4~E~7IaF2E3FR~aF2G~E9~E3~Em~E",
      "7~E2~E5~2FEG3F5~F2G~G2F~2E~fE2F2~2IaRT~7EF6~FG2~E8~2E2~2Em~E7~E2~E5~2FEGFGF4~2G2~2G2F~7F2G",
      "~4E2~E3F2~2IaVEK6~aFE~E6~3E3~E4~3E2~E~E2~3E2~3E3~3Ec~4G2FG2~3G3~G3F~2E~6G~eIaK3V6TV~5FG3FE",
      "8~E3~En~Eg~2FEF3G4~F3~F4~7F2~E3~E2~2E2F2~2Ia~7RK7VEFG2RE8~E3~En~Ea~E5~2FEGFG5~FG2~G2F2~7G2",
      "~5E3~E2F2~2Ia~E2G~cF2G2E9~E3~E15F2EG3F4~G3~G3FEV~4E3GK7E3F2~2IaK9VE6~FG2~Ei~3Eo~E9~E~2E7~3",
      "F~4G3F3~F~G8~6Ia~2G2R~cE1cFE2F7~4TE6DF8RIaR2~11E2~E~E5~Eo~E~EaFE2F9E~2E5~D~F7~Ia~2E4~wEV3R",
      "fVRV3F2V6IaKaVFVFVFNONOG2E8~E10~4FeGF5RF2E5Fb~F10~V8FV6~V2R5V4R2~11E17G2F4GF6GF2G2F2EIaR6E",
      "6G2F2E4F3EG3E2G7E3F4EdFG2F2G6FEGIaG3FV2A12~A~5A~2B17RDB3E95~E4~2E7~E~E4~2E15~E4~2Ex~E4~2E7",
      "~E~E4~2Ef~E1l~E4~2E1v~2F3R9Kk~3EgVa~6A2e~2B6~2MEh8VREhWEqNO~3E23R3J3E8~7EiF3G~9EjF2GR2~9Ei",
      "F2~cEd~E3~F2~cE1gF2GF7G8FG2FbR3DR3TEF~2Ia~6Ka~6R6MR4F3!FIa~6EzDE1h~7E5F2EyFE~5E1y~aEv~F3G4",
      "F2G3~4G2FG6F3~4V~3R2IaEu~2E5~bE18~4Eq~6IaK~3VyEnF2G2F~2R2E1hGFGF7~FGFG2F8G6Fa~2FIa~6Ia~6R7",
      "DR6~2FeHFv~2Fc~kF4GE1bFGF5GFG5FG2E8~R2IaR7VaF9V9R3F2GEuGF4G2F2GF3E2IaE18FGF2G3FGF3G2~8R4E1",
      "0G8F8G2F2~3R5Ia~3E3IaEuD6R2B9AB~5A17~2A3R8~8F3RFdGF7E4FE6FE2GF2E~5B18D1rBdDByD11F1sABABABA",
      "BABABABABABABABABABABABABABABABABABABABABABABABABABABABABABABABABABABABABABABABABABABABABA",
      "BABABABABABABABABABABABABABABABABABABABABABABABABABAB9ABABABABABABABABABABABABABABABABABAB",
      "ABABABABABABABABABABABABABABABABABABABABABABABABABABABABABABAB9A8B6~2A6~2B8A8B8A8B6~2A6~2B",
      "8~A~A~A~AB8A8Be~2B8C8B8C8B8C8B5~B2A4CUBU3B3~B2A4CU3B4~2B2A4~U3B8A5U3~2B3~B2A4CU2~Wb!5M6R2P",
      "QNP2QNPR8XY!5WR9PQR4L2R3SNORbSRLRaW!5~!aKD~2K6S3NODKaS3NO~Dd~3Ty~eFdH4FH3Fc~fV2AV4AV2BA3B2",
      "A3BVAV2SA5V6AVAVAVA4VBA4BE4BV2B2A2S5AB4VSV2BVKgJzABJ4KV2~4S5V5S2V4SV2SV2SV7SVvS2V2SVSVvS7g",
      "V8NONOVkS2V7NOV29SVuSpV14S6V20~mVb~lK1oV26KmV53SV9SV1iS8V33SV6wNONONONONONONOKuV18S5NOSvNO",
      "NONONONOSgV74S3nNONONONONONONONONONONOS1rNONOSwNOS76V1cSlV2S6V13~2V3uA1cB1cABA3B2ABABABA4B",
      "AB2AB6D2A3BABABABABABABABABABABABABABABABABABABABABABABABABABABABABABABABABABABABABABABABA",
      "BABABABABABABABABAB2V6ABABF3AB~5R4KR2B12~B~5B~2E1k~7DR~eFEn~9E7~E7~E7~E7~E7~E7~E7~E7~FwR2P",
      "QPQR3PQRPQR9MR2MRPQR2PQNONONONOR5DRaM2R4MRNRdV2R3NONONONOM~yVq~V2h~cV5y~qVgWR3VDEJNONONONO",
      "NOV2NONONONOMNO2VJ9F4G2MD5V2J3DERV2~E2e~2F2U2D2EME2iRD3E~5E17~E2m~V2K4VaEwV12~9VEgVv~KaVuK",
      "8VKfVwKaV13KfV8wE534V1sEg7pDEvr~3V1j~9E14D6R2E7gDR3EgIaE2~kABABABABABABABABABABABABABABABA",
      "BABABABABABABABEFH3RFaRDABABABABABABABABABABABABABABD2F2E1yJaF2R6~8UnD9U2ABABABABABABAB3AB",
      "ABABABABABABABABABABABABABABABABABABABABABABABABABABABABABABDB8ABABA2BABABABABDU2ABABEABAB",
      "3ABABABABABABABABABABA5BA5BABABABABABABABA4BABA2BABABABABABABABA~kD4ABED2BE7FE3FE4FEnG2F2G",
      "V4F~3K6V2TV~6E1gR4~8G2E1eGgF2~8R2Ia~6FiE6R3ERE2FIaEsF8R2EnFbG2~bREt~3F3GE1bFG2F4G2F2G3Rd~D",
      "Ia~4R2E5FDE9IaE5~E15F6G2F2G2F2~9E3FE8FG~2Ia~2R4EgDE6V3EGFGE1eFEF3E2F2E5F2EFE~oE2DR2EbGF2G2",
      "R2ED2GF~aE6~2E6~2E6~9E7~E7~B17UD4B9DU2~4B28EzG2FG2FG2RGF~2Ia~6E8mc~cEn~4E1d~4?1kw=4xsEa6~2",
      "E2y~12B7~cB5~5EFEaSEd~E5~E~E2~E2~E30UhVgEa3ONVgE1sV2E1iV8~wEcTV3FgR7NOR~6FgRM2L2NONONONONO",
      "NONONOR2NOR4L3R3~R4MNONONOR3SMS3~RTR2~4E5~E3r~2!~R3TR3NORSRMR2IaR2S3R2AqNROULUBqNSOSNORNOR",
      "2EaDE19D2Ev~3E6~2E6~2E6~2E3~3T2SUVT2~VS4V2~a!3V2~2Ec~Eq~Ej~E2~Ef~2Ee~yE3f~5R3~4K19~3V9J1hK",
      "4VhK2V3~Vd~3V~1bV19F~3mEt~3E1d~fFKr~4EwK4~9EkJE8J~5E12F5~5Eu~RE10~4E8RJ5~16A14B14E26~2Ia~6",
      "A10~4B10~4E14~8E1g~bRAb~Af~A7~A2~Bb~Bf~B7~B2~3E1g~cE8n~9Em~aE8~oD6~D16~D9~1xE6~2E~E18~E2~3",
      "E~2En~RK8EnV2K7Ev~8K9~1cEj~E2~5K5EmK6~3REq~5REq~12E1k~4K2E2Kg~2K1aEF3~F2~5F4E4~E3~Et~2F3~4",
      "FK9~7R9~7EtK2REtK3~wE8VEsF2~4K5R7~9E1i~3R7Em~2K8Ej~5K8Ei~7R4~cK7~28E21~1jA1f~dB1f~7K6E10F4",
      "~8Ia~6IaE4DEAm~3F5MDBm~8S2~5sKv~E16~F2M~2E2~gE3DE2~8RV8~xF6EtKaE~8EmFbK4R5~mEiF4R4~12ElK7~",
      "kEn~9GFGE1hFfR7~4KkIaFE2F2E~9F3GE19G3F4G2F2R2!R4F~a!~2Ep~7Ia~6F3E10F5GF8~IaR4EG2E~8EzFR2E~",
      "9F2GE1cG3F9G2E4R4F4RGFIaERER3~Kk~bEi~EpG3F3G2FGF2R6FE2F~1qE7~E~E4~Ef~EaR~6E1bFG3F8~5Ia~6F2",
      "G2~E8~2E2~2Em~E7~E2~E5~F2EG2FG4~2G2~2G3~2E~6G~5E5G2~2F7~3F5~bEa~E~2E~E12~EG3F6~G~2G~G4~G2F",
      "GFEFER2~R2~8F2~tE1hG3F8G2F3GFE4R5IaR2~RFE3~uE1cG3F6GFG4F2GF2E2RE~8Ia~4mE1bG3F4~2G4F2GF2RnE",
      "4F2~yE1cG3F8G2FGF2R3E~bIa~6Rd~jE17FGFG2F6GFER~6Ia~6Ik~sEr~2FGFG2F4GF5~4IaK2R3VE7~55E18G3F9",
      "GF2R~2sAwBwIaK9~cE8~2E~2E8~E2~EoG6~G2~2F2GFEGEGFR3~9Ia~1yE8~2E13G3F4~2F2G4FEREG~rEFaE14F6G",
      "EF4R8F~8EF6G2F3E1aFdGF2R3ER5~dE21~7Ra~2eFGF3GFG~2gExR~eIa~6E9~E11GF7~F6GFER5~aIaKj~3R2Eu~2",
      "Fm~GF7GF2GF2~21E7~E2~E12F6~3F~F2~F7EF~8Ia~6E6~E2~EwG5~F2~G2FGFE~7Ia~6E15DE2~4Ia~6uEjF2G2R2",
      "~7F2EGEd~EyG2F5~3G2FGFRdIaF~2dE~fKlV8T4Vh~dREpm~2uJ33~R5~bE5g~218E2pR2~dEts!gFE6Ff~aE32z~5",
      "Eg7~5a1EuFcG3F3Ia~1c6Eft~7Ev~Ia~4R2E27~Ia~6Eu~2F5R~aE1cF7R5V4D4RV~aIa~K7~El~5Ej~c0D3E14D2R",
      "3Ia~5iAwBwKnR4~5Ap~2Bp~18E23~4FEG1j~7F4Dd~1sD2RDF~bG2D2J3~9E5p2~15Ew~2pE37~6ppD4~D7~D2~E83",
      "~fE~tE3~2E~eE4~8Eb0~1s4E2z~5Ed~3E9~7Ea~2VF2R!4~318V6oIaV3~3Vc4~6Vn~fVgS~fF1a~2Fn~9V38~1oV6",
      "u~aV13~2V1oG2F3V3G6!8F8V2F7VuF4V1p~lV1uF3V~3eKk~cKk~cV2f~9Kp~3rAqBqAqB7~BiAqBqA~A2~2A~2A2~",
      "2A4~A8B4~B~B7~BbAqBqA2~A4~2A8~A7~BqA2~A4~A5~A~3A7~BqAqBqAqBqAqBqAqBqAqBqAqBs~2ApSBpSB6ApSB",
      "pSB6ApSBpSB6ApSBpSB6ApSBpSB6AB~2I1eVe8F1jV4F1eV8FVeFV2R5~fF5~Ff~uoBaEBk~6B6~5xF7~Fh~2F7~F2",
      "~F5~5D1q~xF~34E19~3F7D7~2Ia~4EV~8wEuF~hE18F4Ia~5T~cwErDF4Ia~5yEuF2EIa~4R~5cEv~E3FE2FE7F2E5",
      "F~8ED~68E7~E4~E2~Ef~E5h~2K9F7~15AyByF7D~4Ia~4R2~ltK1nVK3TK4~24K19VKf~5eE4~Er~E2~E~2E~Ea~E4",
      "~E~E~6E~4E~E~E~E3~E2~E~2E~E~E~E~E~E2~E~2E4~E7~E4~E4~E~Ea~Eh~5E3~E5~Eh~1gS2~7iV18~4V2s~cVf~",
      "2Vf~Vf~V11~aKdV4h~1kVt~dV18~4V9~7V2~eV6~4aV6zU5Vk9~3Vh~3Vd~3V62~6Vc~4V~fVc~4V1k~8Va~6V14~8",
      "Vu~2Vc~4V2~eS9~13V9k~8Ve~2Vd~3Vb~3V1l~V~4Vg~2Vc~4Va~7V43~V2kIaV~slEwyo~wE3dq~2E4ge~2E5rl~f",
      "Eha~1wiEf2~15uE3t7~5E6ju~f5vr!~u!2o~3kF6o~1e6o=1eke~2=1eke~2"]

/-- The letters of the categories that a name stands for. -/
def categoryNames : List (String × String) :=
  [("Lu", "A"), ("Uppercase_Letter", "A"), ("Ll", "B"), ("Lowercase_Letter", "B"), ("Lt", "C"),
    ("Titlecase_Letter", "C"), ("Lm", "D"), ("Modifier_Letter", "D"), ("Lo", "E"),
    ("Other_Letter", "E"), ("Mn", "F"), ("Nonspacing_Mark", "F"), ("Mc", "G"),
    ("Spacing_Mark", "G"), ("Me", "H"), ("Enclosing_Mark", "H"), ("Nd", "I"),
    ("Decimal_Number", "I"), ("digit", "I"), ("Nl", "J"), ("Letter_Number", "J"), ("No", "K"),
    ("Other_Number", "K"), ("Pc", "L"), ("Connector_Punctuation", "L"), ("Pd", "M"),
    ("Dash_Punctuation", "M"), ("Ps", "N"), ("Open_Punctuation", "N"), ("Pe", "O"),
    ("Close_Punctuation", "O"), ("Pi", "P"), ("Initial_Punctuation", "P"), ("Pf", "Q"),
    ("Final_Punctuation", "Q"), ("Po", "R"), ("Other_Punctuation", "R"), ("Sm", "S"),
    ("Math_Symbol", "S"), ("Sc", "T"), ("Currency_Symbol", "T"), ("Sk", "U"),
    ("Modifier_Symbol", "U"), ("So", "V"), ("Other_Symbol", "V"), ("Zs", "W"),
    ("Space_Separator", "W"), ("Zl", "X"), ("Line_Separator", "X"), ("Zp", "Y"),
    ("Paragraph_Separator", "Y"), ("Cc", "Z"), ("Control", "Z"), ("cntrl", "Z"), ("Cf", "!"),
    ("Format", "!"), ("Cs", "?"), ("Surrogate", "?"), ("Co", "="), ("Private_Use", "="),
    ("Cn", "~"), ("Unassigned", "~"), ("L", "ABCDE"), ("Letter", "ABCDE"), ("LC", "ABC"),
    ("Cased_Letter", "ABC"), ("M", "FGH"), ("Mark", "FGH"), ("Combining_Mark", "FGH"),
    ("N", "IJK"), ("Number", "IJK"), ("P", "LMNOPQR"), ("Punctuation", "LMNOPQR"),
    ("punct", "LMNOPQR"), ("S", "STUV"), ("Symbol", "STUV"), ("Z", "WXY"), ("Separator", "WXY"),
    ("C", "Z!?=~"), ("Other", "Z!?=~")]

/-- The runs of some categories, in order. -/
def categoryRanges (letters : String) : List (Nat × Nat) :=
  let close (start stop : Nat) (kept : Bool) (acc : List (Nat × Nat)) : List (Nat × Nat) :=
    if kept && start < stop then (start, stop - 1) :: acc else acc
  let rec go (start : Nat) (length : Option Nat) (kept : Bool) :
      List Char → List (Nat × Nat) → List (Nat × Nat)
    | [], acc => close start (start + length.getD 1) kept acc
    | c :: cs, acc =>
      let digit : Option Nat :=
        if '0' ≤ c && c ≤ '9' then some (c.toNat - 48)
        else if 'a' ≤ c && c ≤ 'z' then some (c.toNat - 87)
        else none
      match digit with
      | some d => go start (some (length.getD 0 * 36 + d)) kept cs acc
      | none =>
        let stop := start + length.getD 1
        go stop none (letters.contains c) cs (close start stop kept acc)
  (go 0 (some 0) false categoryRuns.toList []).reverse

def scripts : List (String × List (Nat × Nat)) :=
  [("Latin", [
      (0x41, 0x5A), (0x61, 0x7A), (0xAA, 0xAA), (0xBA, 0xBA), (0xC0, 0xD6), (0xD8, 0xF6),
      (0xF8, 0x2B8), (0x2E0, 0x2E4), (0x1D00, 0x1D25), (0x1D2C, 0x1D5C), (0x1D62, 0x1D65),
      (0x1D6B, 0x1D77), (0x1D79, 0x1DBE), (0x1E00, 0x1EFF), (0x2071, 0x2071), (0x207F, 0x207F),
      (0x2090, 0x209C), (0x212A, 0x212B), (0x2132, 0x2132), (0x214E, 0x214E), (0x2160, 0x2188),
      (0x2C60, 0x2C7F), (0xA722, 0xA787), (0xA78B, 0xA7DC), (0xA7F1, 0xA7FF), (0xAB30, 0xAB5A),
      (0xAB5C, 0xAB64), (0xAB66, 0xAB69), (0xFB00, 0xFB06), (0xFF21, 0xFF3A), (0xFF41, 0xFF5A),
      (0x10780, 0x10785), (0x10787, 0x107B0), (0x107B2, 0x107BA), (0x1DF00, 0x1DF1E),
      (0x1DF25, 0x1DF2A)]),
    ("Greek", [
      (0x370, 0x373), (0x375, 0x377), (0x37A, 0x37D), (0x37F, 0x37F), (0x384, 0x384),
      (0x386, 0x386), (0x388, 0x38A), (0x38C, 0x38C), (0x38E, 0x3A1), (0x3A3, 0x3E1),
      (0x3F0, 0x3FF), (0x1D26, 0x1D2A), (0x1D5D, 0x1D61), (0x1D66, 0x1D6A), (0x1DBF, 0x1DBF),
      (0x1F00, 0x1F15), (0x1F18, 0x1F1D), (0x1F20, 0x1F45), (0x1F48, 0x1F4D), (0x1F50, 0x1F57),
      (0x1F59, 0x1F59), (0x1F5B, 0x1F5B), (0x1F5D, 0x1F5D), (0x1F5F, 0x1F7D), (0x1F80, 0x1FB4),
      (0x1FB6, 0x1FC4), (0x1FC6, 0x1FD3), (0x1FD6, 0x1FDB), (0x1FDD, 0x1FEF), (0x1FF2, 0x1FF4),
      (0x1FF6, 0x1FFE), (0x2126, 0x2126), (0xAB65, 0xAB65), (0x10140, 0x1018E),
      (0x101A0, 0x101A0), (0x1D200, 0x1D245)]),
    ("Cyrillic", [
      (0x400, 0x484), (0x487, 0x52F), (0x1C80, 0x1C8A), (0x1D2B, 0x1D2B), (0x1D78, 0x1D78),
      (0x2DE0, 0x2DFF), (0xA640, 0xA69F), (0xFE2E, 0xFE2F), (0x1E030, 0x1E06D),
      (0x1E08F, 0x1E08F)]),
    ("Han", [
      (0x2E80, 0x2E99), (0x2E9B, 0x2EF3), (0x2F00, 0x2FD5), (0x3005, 0x3005), (0x3007, 0x3007),
      (0x3021, 0x3029), (0x3038, 0x303B), (0x3400, 0x4DBF), (0x4E00, 0x9FFF), (0xF900, 0xFA6D),
      (0xFA70, 0xFAD9), (0x16FE2, 0x16FE3), (0x16FF0, 0x16FF6), (0x20000, 0x2A6DF),
      (0x2A700, 0x2B81D), (0x2B820, 0x2CEAD), (0x2CEB0, 0x2EBE0), (0x2EBF0, 0x2EE5D),
      (0x2F800, 0x2FA1D), (0x30000, 0x3134A), (0x31350, 0x33479)]),
    ("Hiragana", [
      (0x3041, 0x3096), (0x309D, 0x309F), (0x1B001, 0x1B11F), (0x1B132, 0x1B132),
      (0x1B150, 0x1B152), (0x1F200, 0x1F200)]),
    ("Katakana", [
      (0x30A1, 0x30FA), (0x30FD, 0x30FF), (0x31F0, 0x31FF), (0x32D0, 0x32FE), (0x3300, 0x3357),
      (0xFF66, 0xFF6F), (0xFF71, 0xFF9D), (0x1AFF0, 0x1AFF3), (0x1AFF5, 0x1AFFB),
      (0x1AFFD, 0x1AFFE), (0x1B000, 0x1B000), (0x1B120, 0x1B122), (0x1B155, 0x1B155),
      (0x1B164, 0x1B167)]),
    ("Hebrew", [
      (0x591, 0x5C7), (0x5D0, 0x5EA), (0x5EF, 0x5F4), (0xFB1D, 0xFB36), (0xFB38, 0xFB3C),
      (0xFB3E, 0xFB3E), (0xFB40, 0xFB41), (0xFB43, 0xFB44), (0xFB46, 0xFB4F)]),
    ("Arabic", [
      (0x600, 0x604), (0x606, 0x60B), (0x60D, 0x61A), (0x61C, 0x61E), (0x620, 0x63F),
      (0x641, 0x64A), (0x656, 0x66F), (0x671, 0x6DC), (0x6DE, 0x6FF), (0x750, 0x77F),
      (0x870, 0x891), (0x897, 0x8E1), (0x8E3, 0x8FF), (0xFB50, 0xFD3D), (0xFD40, 0xFDCF),
      (0xFDF0, 0xFDFF), (0xFE70, 0xFE74), (0xFE76, 0xFEFC), (0x10E60, 0x10E7E),
      (0x10EC2, 0x10EC7), (0x10ED0, 0x10ED8), (0x10EFA, 0x10EFF), (0x1EE00, 0x1EE03),
      (0x1EE05, 0x1EE1F), (0x1EE21, 0x1EE22), (0x1EE24, 0x1EE24), (0x1EE27, 0x1EE27),
      (0x1EE29, 0x1EE32), (0x1EE34, 0x1EE37), (0x1EE39, 0x1EE39), (0x1EE3B, 0x1EE3B),
      (0x1EE42, 0x1EE42), (0x1EE47, 0x1EE47), (0x1EE49, 0x1EE49), (0x1EE4B, 0x1EE4B),
      (0x1EE4D, 0x1EE4F), (0x1EE51, 0x1EE52), (0x1EE54, 0x1EE54), (0x1EE57, 0x1EE57),
      (0x1EE59, 0x1EE59), (0x1EE5B, 0x1EE5B), (0x1EE5D, 0x1EE5D), (0x1EE5F, 0x1EE5F),
      (0x1EE61, 0x1EE62), (0x1EE64, 0x1EE64), (0x1EE67, 0x1EE6A), (0x1EE6C, 0x1EE72),
      (0x1EE74, 0x1EE77), (0x1EE79, 0x1EE7C), (0x1EE7E, 0x1EE7E), (0x1EE80, 0x1EE89),
      (0x1EE8B, 0x1EE9B), (0x1EEA1, 0x1EEA3), (0x1EEA5, 0x1EEA9), (0x1EEAB, 0x1EEBB),
      (0x1EEF0, 0x1EEF1)]),
    ("Thai", [
      (0xE01, 0xE3A), (0xE40, 0xE5B)]),
    ("Hangul", [
      (0x1100, 0x11FF), (0x302E, 0x302F), (0x3131, 0x318E), (0x3200, 0x321E), (0x3260, 0x327E),
      (0xA960, 0xA97C), (0xAC00, 0xD7A3), (0xD7B0, 0xD7C6), (0xD7CB, 0xD7FB), (0xFFA0, 0xFFBE),
      (0xFFC2, 0xFFC7), (0xFFCA, 0xFFCF), (0xFFD2, 0xFFD7), (0xFFDA, 0xFFDC)]),
    ("Devanagari", [
      (0x900, 0x950), (0x955, 0x963), (0x966, 0x97F), (0xA8E0, 0xA8FF), (0x11B00, 0x11B09)]),
    ("Armenian", [
      (0x531, 0x556), (0x559, 0x58A), (0x58D, 0x58F), (0xFB13, 0xFB17)]),
    ("Georgian", [
      (0x10A0, 0x10C5), (0x10C7, 0x10C7), (0x10CD, 0x10CD), (0x10D0, 0x10FA), (0x10FC, 0x10FF),
      (0x1C90, 0x1CBA), (0x1CBD, 0x1CBF), (0x2D00, 0x2D25), (0x2D27, 0x2D27), (0x2D2D, 0x2D2D)])]

def scriptNames : List (String × String) :=
  [("Latn", "Latin"), ("Grek", "Greek"), ("Cyrl", "Cyrillic"), ("Hani", "Han"),
    ("Hira", "Hiragana"), ("Kana", "Katakana"), ("Hebr", "Hebrew"), ("Arab", "Arabic"),
    ("Hang", "Hangul"), ("Deva", "Devanagari"), ("Armn", "Armenian"), ("Geor", "Georgian")]

def emoji : List (Nat × Nat) :=
  [(0x23, 0x23), (0x2A, 0x2A), (0x30, 0x39), (0xA9, 0xA9), (0xAE, 0xAE), (0x203C, 0x203C),
    (0x2049, 0x2049), (0x2122, 0x2122), (0x2139, 0x2139), (0x2194, 0x2199), (0x21A9, 0x21AA),
    (0x231A, 0x231B), (0x2328, 0x2328), (0x23CF, 0x23CF), (0x23E9, 0x23F3), (0x23F8, 0x23FA),
    (0x24C2, 0x24C2), (0x25AA, 0x25AB), (0x25B6, 0x25B6), (0x25C0, 0x25C0), (0x25FB, 0x25FE),
    (0x2600, 0x2604), (0x260E, 0x260E), (0x2611, 0x2611), (0x2614, 0x2615), (0x2618, 0x2618),
    (0x261D, 0x261D), (0x2620, 0x2620), (0x2622, 0x2623), (0x2626, 0x2626), (0x262A, 0x262A),
    (0x262E, 0x262F), (0x2638, 0x263A), (0x2640, 0x2640), (0x2642, 0x2642), (0x2648, 0x2653),
    (0x265F, 0x2660), (0x2663, 0x2663), (0x2665, 0x2666), (0x2668, 0x2668), (0x267B, 0x267B),
    (0x267E, 0x267F), (0x2692, 0x2697), (0x2699, 0x2699), (0x269B, 0x269C), (0x26A0, 0x26A1),
    (0x26A7, 0x26A7), (0x26AA, 0x26AB), (0x26B0, 0x26B1), (0x26BD, 0x26BE), (0x26C4, 0x26C5),
    (0x26C8, 0x26C8), (0x26CE, 0x26CF), (0x26D1, 0x26D1), (0x26D3, 0x26D4), (0x26E9, 0x26EA),
    (0x26F0, 0x26F5), (0x26F7, 0x26FA), (0x26FD, 0x26FD), (0x2702, 0x2702), (0x2705, 0x2705),
    (0x2708, 0x270D), (0x270F, 0x270F), (0x2712, 0x2712), (0x2714, 0x2714), (0x2716, 0x2716),
    (0x271D, 0x271D), (0x2721, 0x2721), (0x2728, 0x2728), (0x2733, 0x2734), (0x2744, 0x2744),
    (0x2747, 0x2747), (0x274C, 0x274C), (0x274E, 0x274E), (0x2753, 0x2755), (0x2757, 0x2757),
    (0x2763, 0x2764), (0x2795, 0x2797), (0x27A1, 0x27A1), (0x27B0, 0x27B0), (0x27BF, 0x27BF),
    (0x2934, 0x2935), (0x2B05, 0x2B07), (0x2B1B, 0x2B1C), (0x2B50, 0x2B50), (0x2B55, 0x2B55),
    (0x3030, 0x3030), (0x303D, 0x303D), (0x3297, 0x3297), (0x3299, 0x3299), (0x1F004, 0x1F004),
    (0x1F0CF, 0x1F0CF), (0x1F170, 0x1F171), (0x1F17E, 0x1F17F), (0x1F18E, 0x1F18E),
    (0x1F191, 0x1F19A), (0x1F1E6, 0x1F1FF), (0x1F201, 0x1F202), (0x1F21A, 0x1F21A),
    (0x1F22F, 0x1F22F), (0x1F232, 0x1F23A), (0x1F250, 0x1F251), (0x1F300, 0x1F321),
    (0x1F324, 0x1F393), (0x1F396, 0x1F397), (0x1F399, 0x1F39B), (0x1F39E, 0x1F3F0),
    (0x1F3F3, 0x1F3F5), (0x1F3F7, 0x1F4FD), (0x1F4FF, 0x1F53D), (0x1F549, 0x1F54E),
    (0x1F550, 0x1F567), (0x1F56F, 0x1F570), (0x1F573, 0x1F57A), (0x1F587, 0x1F587),
    (0x1F58A, 0x1F58D), (0x1F590, 0x1F590), (0x1F595, 0x1F596), (0x1F5A4, 0x1F5A5),
    (0x1F5A8, 0x1F5A8), (0x1F5B1, 0x1F5B2), (0x1F5BC, 0x1F5BC), (0x1F5C2, 0x1F5C4),
    (0x1F5D1, 0x1F5D3), (0x1F5DC, 0x1F5DE), (0x1F5E1, 0x1F5E1), (0x1F5E3, 0x1F5E3),
    (0x1F5E8, 0x1F5E8), (0x1F5EF, 0x1F5EF), (0x1F5F3, 0x1F5F3), (0x1F5FA, 0x1F64F),
    (0x1F680, 0x1F6C5), (0x1F6CB, 0x1F6D2), (0x1F6D5, 0x1F6D8), (0x1F6DC, 0x1F6E5),
    (0x1F6E9, 0x1F6E9), (0x1F6EB, 0x1F6EC), (0x1F6F0, 0x1F6F0), (0x1F6F3, 0x1F6FC),
    (0x1F7E0, 0x1F7EB), (0x1F7F0, 0x1F7F0), (0x1F90C, 0x1F93A), (0x1F93C, 0x1F945),
    (0x1F947, 0x1F9FF), (0x1FA70, 0x1FA7C), (0x1FA80, 0x1FA8A), (0x1FA8E, 0x1FAC6),
    (0x1FAC8, 0x1FAC8), (0x1FACD, 0x1FADC), (0x1FADF, 0x1FAEA), (0x1FAEF, 0x1FAF8)]

def emojiPresentation : List (Nat × Nat) :=
  [(0x231A, 0x231B), (0x23E9, 0x23EC), (0x23F0, 0x23F0), (0x23F3, 0x23F3), (0x25FD, 0x25FE),
    (0x2614, 0x2615), (0x2648, 0x2653), (0x267F, 0x267F), (0x2693, 0x2693), (0x26A1, 0x26A1),
    (0x26AA, 0x26AB), (0x26BD, 0x26BE), (0x26C4, 0x26C5), (0x26CE, 0x26CE), (0x26D4, 0x26D4),
    (0x26EA, 0x26EA), (0x26F2, 0x26F3), (0x26F5, 0x26F5), (0x26FA, 0x26FA), (0x26FD, 0x26FD),
    (0x2705, 0x2705), (0x270A, 0x270B), (0x2728, 0x2728), (0x274C, 0x274C), (0x274E, 0x274E),
    (0x2753, 0x2755), (0x2757, 0x2757), (0x2795, 0x2797), (0x27B0, 0x27B0), (0x27BF, 0x27BF),
    (0x2B1B, 0x2B1C), (0x2B50, 0x2B50), (0x2B55, 0x2B55), (0x1F004, 0x1F004), (0x1F0CF, 0x1F0CF),
    (0x1F18E, 0x1F18E), (0x1F191, 0x1F19A), (0x1F1E6, 0x1F1FF), (0x1F201, 0x1F201),
    (0x1F21A, 0x1F21A), (0x1F22F, 0x1F22F), (0x1F232, 0x1F236), (0x1F238, 0x1F23A),
    (0x1F250, 0x1F251), (0x1F300, 0x1F320), (0x1F32D, 0x1F335), (0x1F337, 0x1F37C),
    (0x1F37E, 0x1F393), (0x1F3A0, 0x1F3CA), (0x1F3CF, 0x1F3D3), (0x1F3E0, 0x1F3F0),
    (0x1F3F4, 0x1F3F4), (0x1F3F8, 0x1F43E), (0x1F440, 0x1F440), (0x1F442, 0x1F4FC),
    (0x1F4FF, 0x1F53D), (0x1F54B, 0x1F54E), (0x1F550, 0x1F567), (0x1F57A, 0x1F57A),
    (0x1F595, 0x1F596), (0x1F5A4, 0x1F5A4), (0x1F5FB, 0x1F64F), (0x1F680, 0x1F6C5),
    (0x1F6CC, 0x1F6CC), (0x1F6D0, 0x1F6D2), (0x1F6D5, 0x1F6D8), (0x1F6DC, 0x1F6DF),
    (0x1F6EB, 0x1F6EC), (0x1F6F4, 0x1F6FC), (0x1F7E0, 0x1F7EB), (0x1F7F0, 0x1F7F0),
    (0x1F90C, 0x1F93A), (0x1F93C, 0x1F945), (0x1F947, 0x1F9FF), (0x1FA70, 0x1FA7C),
    (0x1FA80, 0x1FA8A), (0x1FA8E, 0x1FAC6), (0x1FAC8, 0x1FAC8), (0x1FACD, 0x1FADC),
    (0x1FADF, 0x1FAEA), (0x1FAEF, 0x1FAF8)]

def extendedPictographic : List (Nat × Nat) :=
  [(0xA9, 0xA9), (0xAE, 0xAE), (0x203C, 0x203C), (0x2049, 0x2049), (0x2122, 0x2122),
    (0x2139, 0x2139), (0x2194, 0x2199), (0x21A9, 0x21AA), (0x231A, 0x231B), (0x2328, 0x2328),
    (0x23CF, 0x23CF), (0x23E9, 0x23F3), (0x23F8, 0x23FA), (0x24C2, 0x24C2), (0x25AA, 0x25AB),
    (0x25B6, 0x25B6), (0x25C0, 0x25C0), (0x25FB, 0x25FE), (0x2600, 0x2604), (0x260E, 0x260E),
    (0x2611, 0x2611), (0x2614, 0x2615), (0x2618, 0x2618), (0x261D, 0x261D), (0x2620, 0x2620),
    (0x2622, 0x2623), (0x2626, 0x2626), (0x262A, 0x262A), (0x262E, 0x262F), (0x2638, 0x263A),
    (0x2640, 0x2640), (0x2642, 0x2642), (0x2648, 0x2653), (0x265F, 0x2660), (0x2663, 0x2663),
    (0x2665, 0x2666), (0x2668, 0x2668), (0x267B, 0x267B), (0x267E, 0x267F), (0x2692, 0x2697),
    (0x2699, 0x2699), (0x269B, 0x269C), (0x26A0, 0x26A1), (0x26A7, 0x26A7), (0x26AA, 0x26AB),
    (0x26B0, 0x26B1), (0x26BD, 0x26BE), (0x26C4, 0x26C5), (0x26C8, 0x26C8), (0x26CE, 0x26CF),
    (0x26D1, 0x26D1), (0x26D3, 0x26D4), (0x26E9, 0x26EA), (0x26F0, 0x26F5), (0x26F7, 0x26FA),
    (0x26FD, 0x26FD), (0x2702, 0x2702), (0x2705, 0x2705), (0x2708, 0x270D), (0x270F, 0x270F),
    (0x2712, 0x2712), (0x2714, 0x2714), (0x2716, 0x2716), (0x271D, 0x271D), (0x2721, 0x2721),
    (0x2728, 0x2728), (0x2733, 0x2734), (0x2744, 0x2744), (0x2747, 0x2747), (0x274C, 0x274C),
    (0x274E, 0x274E), (0x2753, 0x2755), (0x2757, 0x2757), (0x2763, 0x2764), (0x2795, 0x2797),
    (0x27A1, 0x27A1), (0x27B0, 0x27B0), (0x27BF, 0x27BF), (0x2934, 0x2935), (0x2B05, 0x2B07),
    (0x2B1B, 0x2B1C), (0x2B50, 0x2B50), (0x2B55, 0x2B55), (0x3030, 0x3030), (0x303D, 0x303D),
    (0x3297, 0x3297), (0x3299, 0x3299), (0x1F004, 0x1F004), (0x1F02C, 0x1F02F),
    (0x1F094, 0x1F09F), (0x1F0AF, 0x1F0B0), (0x1F0C0, 0x1F0C0), (0x1F0CF, 0x1F0D0),
    (0x1F0F6, 0x1F0FF), (0x1F170, 0x1F171), (0x1F17E, 0x1F17F), (0x1F18E, 0x1F18E),
    (0x1F191, 0x1F19A), (0x1F1AE, 0x1F1E5), (0x1F201, 0x1F20F), (0x1F21A, 0x1F21A),
    (0x1F22F, 0x1F22F), (0x1F232, 0x1F23A), (0x1F23C, 0x1F23F), (0x1F249, 0x1F25F),
    (0x1F266, 0x1F321), (0x1F324, 0x1F393), (0x1F396, 0x1F397), (0x1F399, 0x1F39B),
    (0x1F39E, 0x1F3F0), (0x1F3F3, 0x1F3F5), (0x1F3F7, 0x1F3FA), (0x1F400, 0x1F4FD),
    (0x1F4FF, 0x1F53D), (0x1F549, 0x1F54E), (0x1F550, 0x1F567), (0x1F56F, 0x1F570),
    (0x1F573, 0x1F57A), (0x1F587, 0x1F587), (0x1F58A, 0x1F58D), (0x1F590, 0x1F590),
    (0x1F595, 0x1F596), (0x1F5A4, 0x1F5A5), (0x1F5A8, 0x1F5A8), (0x1F5B1, 0x1F5B2),
    (0x1F5BC, 0x1F5BC), (0x1F5C2, 0x1F5C4), (0x1F5D1, 0x1F5D3), (0x1F5DC, 0x1F5DE),
    (0x1F5E1, 0x1F5E1), (0x1F5E3, 0x1F5E3), (0x1F5E8, 0x1F5E8), (0x1F5EF, 0x1F5EF),
    (0x1F5F3, 0x1F5F3), (0x1F5FA, 0x1F64F), (0x1F680, 0x1F6C5), (0x1F6CB, 0x1F6D2),
    (0x1F6D5, 0x1F6E5), (0x1F6E9, 0x1F6E9), (0x1F6EB, 0x1F6F0), (0x1F6F3, 0x1F6FF),
    (0x1F7DA, 0x1F7FF), (0x1F80C, 0x1F80F), (0x1F848, 0x1F84F), (0x1F85A, 0x1F85F),
    (0x1F888, 0x1F88F), (0x1F8AE, 0x1F8AF), (0x1F8BC, 0x1F8BF), (0x1F8C2, 0x1F8CF),
    (0x1F8D9, 0x1F8FF), (0x1F90C, 0x1F93A), (0x1F93C, 0x1F945), (0x1F947, 0x1F9FF),
    (0x1FA58, 0x1FA5F), (0x1FA6E, 0x1FAFF), (0x1FC00, 0x1FFFD)]

/-- Properties that a character has or has not, by their names. -/
def binaryProperty? (name : String) : Option (List (Nat × Nat)) :=
  match name with
  | "Any" => some [(0, 0x10FFFF)]
  | "ASCII" => some [(0, 0x7F)]
  | "ASCII_Hex_Digit" | "AHex" => some [(0x30, 0x39), (0x41, 0x46), (0x61, 0x66)]
  | "Alphabetic" | "Alpha" => some Text.Ranges.alphabetic
  | "White_Space" | "space" => some Text.Ranges.blank
  | "Lowercase" | "Lower" => some ((0xAA, 0xAA) :: (0xBA, 0xBA) :: categoryRanges "B")
  | "Uppercase" | "Upper" => some (categoryRanges "A" ++ [(0x2160, 0x216F), (0x24B6, 0x24CF)])
  | "ID_Start" | "IDS" => some (categoryRanges "ABCDEJ")
  | "ID_Continue" | "IDC" => some ((0xB7, 0xB7) :: categoryRanges "ABCDEJFGIL")
  | "Emoji" => some emoji
  | "Emoji_Presentation" | "EPres" => some emojiPresentation
  | "Extended_Pictographic" | "ExtPict" => some extendedPictographic
  | _ => none

def category? (name : String) : Option (List (Nat × Nat)) :=
  (categoryNames.lookup name).map categoryRanges

/-- The characters that have a property, which is written as a name alone or as a name with a value.
-/
def propertyRanges (name : String) (value : Option String) : Except String (List (Nat × Nat)) :=
  match name, value with
  | "Script", some v | "sc", some v | "Script_Extensions", some v | "scx", some v =>
    match scripts.lookup ((scriptNames.lookup v).getD v) with
    | some rs => .ok rs
    | none => .error "unknown unicode script"
  | "General_Category", some v | "gc", some v =>
    match category? v with
    | some rs => .ok rs
    | none => .error "unknown unicode general category"
  | _, some _ => .error "unknown unicode property name"
  | _, none =>
    match (category? name).or (binaryProperty? name) with
    | some rs => .ok rs
    | none => .error "unknown unicode property name"

end ScriptSandbox.Regex
