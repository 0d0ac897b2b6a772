import ContestInput.Text.Search
/-!
# The program template

The text that all programs have in common, with three markers that give way to constants,
declarations and input statements. The markers are filled one after the other, each at its first
occurrence in the text so far.
-/

namespace ContestInput.Program.Template

def constantsMarker : String := "/*** CONSTS ***/"

def declarationsMarker : String := "/*** DCLS ***/"

def readsMarker : String := "/*** READS ***/"

/-- Lines as one text, without a break behind the last one. -/
def block (lines : List String) : String :=
  "\n".intercalate lines

/-- The lines of the template, with the given texts in the three places where programs differ. The
last line is empty, so the text ends with a line break. -/
def lines (constants declarations reads : String) : List String :=
  ["#include <cstdio>",
   "",
   "using namespace std;",
   "",
   "#define REP(i,n)   for(int i=0; i<(int)(n); i++)",
   "#define FOR(i,b,e) for(int i=(b); i<=(int)(e); i++)",
   "",
   constants,
   "",
   declarations,
   "",
   "void solve() \x7b",
   "  int ans = 0;",
   "  printf(\"%d\\n\", ans);",
   "\x7d",
   "",
   "void input() \x7b",
   reads,
   "\x7d",
   "",
   "int main() \x7b",
   "  input();",
   "  solve();",
   "  return 0;",
   "\x7d",
   ""]

def text : String :=
  block (lines constantsMarker declarationsMarker readsMarker)

def indent (line : String) : String :=
  "  " ++ line

/-- Puts `content` in the place of a marker's first occurrence. -/
def fillMarker (marker content text : String) : String :=
  String.ofList (Text.replaceFirst marker.toList content.toList text.toList)

def fill (constants declarations reads : List String) : String :=
  fillMarker readsMarker (block (reads.map indent))
    (fillMarker declarationsMarker (block declarations)
      (fillMarker constantsMarker (block constants) text))

end ContestInput.Program.Template
