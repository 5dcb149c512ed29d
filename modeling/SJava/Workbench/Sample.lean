import SJava.Text.Basic

/-!
# Samples

The programs that the workbench offers, by name in ascending order: some break a rule, some do not.
A new session starts with a program of its own.
-/

namespace SJava.Workbench

structure Sample where
  name : String
  code : String

def Sample.finalReassigned : Sample where
  name := "fail_01_final_reassign.sjava"
  code :=
    "final double PI = 3.14;\n" ++
    "void f() \x7b\n" ++
    "    PI = 3.0;\n" ++
    "    return;\n" ++
    "\x7d\n"

def Sample.withoutReturn : Sample where
  name := "fail_02_missing_return.sjava"
  code :=
    "void f() \x7b\n" ++
    "    int a = 1;\n" ++
    "\x7d\n"

def Sample.callOutside : Sample where
  name := "fail_03_global_call.sjava"
  code :=
    "void f() \x7b\n" ++
    "    return;\n" ++
    "\x7d\n" ++
    "f();\n"

def Sample.textCondition : Sample where
  name := "fail_04_bad_condition.sjava"
  code :=
    "void f() \x7b\n" ++
    "    String s = \"a\";\n" ++
    "    if (s) \x7b\n" ++
    "    \x7d\n" ++
    "    return;\n" ++
    "\x7d\n"

def Sample.indentedComment : Sample where
  name := "fail_05_indented_comment.sjava"
  code :=
    "int a = 1;\n" ++
    "   // comentario que no empieza en la primera columna\n"

def Sample.withoutClose : Sample where
  name := "fail_06_missing_closing_brace.sjava"
  code :=
    "void f() \x7b\n" ++
    "    return;\n"

def Sample.globals : Sample where
  name := "ok_01_globals.sjava"
  code :=
    "// declaraciones globales\n" ++
    "int a = 5;\n" ++
    "double d = a, e = 2.5;\n" ++
    "boolean flag = d;\n" ++
    "String s = \"hello, world; ok\";\n" ++
    "char c = 'x';\n" ++
    "final int LIMIT = -3;\n" ++
    "int later;\n" ++
    "later = 7;\n"

def Sample.methods : Sample where
  name := "ok_02_methods.sjava"
  code :=
    "int counter = 0;\n" ++
    "\n" ++
    "void main() \x7b\n" ++
    "    int x = 1;\n" ++
    "    helper(x, 2.0, \"text\");\n" ++
    "    return;\n" ++
    "\x7d\n" ++
    "\n" ++
    "// método declarado después de su primera llamada\n" ++
    "void helper(final int a, double b, String c) \x7b\n" ++
    "    double total = a;\n" ++
    "    total = b;\n" ++
    "    counter = a;\n" ++
    "    return;\n" ++
    "\x7d\n"

def Sample.conditions : Sample where
  name := "ok_03_conditions.sjava"
  code :=
    "void loop(int n, boolean stop) \x7b\n" ++
    "    boolean done = false;\n" ++
    "    while (done || n && stop) \x7b\n" ++
    "        if (true) \x7b\n" ++
    "            int n2 = n;\n" ++
    "            done = true;\n" ++
    "        \x7d\n" ++
    "        if (1.5) \x7b\n" ++
    "            return;\n" ++
    "        \x7d\n" ++
    "    \x7d\n" ++
    "    return;\n" ++
    "\x7d\n"

def Sample.shadowing : Sample where
  name := "ok_04_shadowing.sjava"
  code :=
    "int x = 1;\n" ++
    "void f(String x) \x7b\n" ++
    "    if (true) \x7b\n" ++
    "        int x = 3;\n" ++
    "        x = 4;\n" ++
    "    \x7d\n" ++
    "    x = \"shadowed\";\n" ++
    "    return;\n" ++
    "\x7d\n"

def samples : List Sample :=
  [.finalReassigned, .withoutReturn, .callOutside, .textCondition, .indentedComment,
    .withoutClose, .globals, .methods, .conditions, .shadowing]

def firstProgram : Text :=
  ("final int LIMIT = 10;\n" ++
    "// llamada antes de la declaración\n" ++
    "void main(int n) \x7b\n" ++
    "  boolean ok = true;\n" ++
    "  if (ok && n) \x7b\n" ++
    "    report(n, 'x');\n" ++
    "  \x7d\n" ++
    "  return;\n" ++
    "\x7d\n" ++
    "void report(double value, char tag) \x7b\n" ++
    "  return;\n" ++
    "\x7d\n").toList

end SJava.Workbench
